import SectorFS.Proofs.File.Cursor
import SectorFS.Proofs.Volume.Make
import SectorFS.Volume.Descriptors

/-!
# Descriptors

Reading and writing through a descriptor works on the bytes of its node: `runs_read`, `runs_write`.
A number's descriptor changes by the operations on that number only, as `under_setFile`,
`under_close` and `under_opened` say. Opening finds a node or the root, or may make directories on
the way before it is refused: `tries_openPath`.
-/

namespace SectorFS

/-- The root is the one path without a name in it on either side. -/
theorem Path.splitLast_isEmpty_iff {path : String} (h : Absolute path) :
    ((splitLast path).1.isEmpty && (splitLast path).2.isEmpty) = true ↔ path = "/" := by
  constructor
  · intro empty
    obtain ⟨front, behind⟩ := Bool.and_eq_true_iff.mp empty
    simp only [splitLast, String.isEmpty_iff, String.ofList_eq_empty_iff,
      List.reverse_eq_nil_iff] at front behind
    have chars : path.toList = path.toList.reverse.reverse := (List.reverse_reverse _).symm
    cases back : path.toList.reverse with
    | nil =>
      rw [back] at chars
      rw [Absolute, chars] at h
      cases h
    | cons c rest =>
      rw [back, List.takeWhile_cons] at behind
      rw [back, List.dropWhile_cons] at front
      by_cases hc : c = separator
      · subst hc
        simp only [bne_self_eq_false, Bool.false_eq_true, if_false, List.drop_succ_cons,
          List.drop_zero] at front
        rw [back, front] at chars
        exact String.toList_inj.mp chars
      · rw [if_pos (bne_iff_ne.mpr hc)] at behind
        cases behind
  · rintro rfl
    decide

namespace Volume

variable {volume : Volume}

theorem descriptor_eq_ok_iff {id : Nat} {d : Descriptor} :
    volume.descriptor id = .ok d ↔ volume.under id = some d := by
  rw [descriptor, under]
  cases h : volume.descriptors.lookup id with
  | none => exact ⟨nofun, nofun⟩
  | some e =>
    exact ⟨fun he => congrArg some (Except.ok.inj he), fun he => congrArg _ (Option.some.inj he)⟩

theorem descriptor_of_none {id : Nat} (h : volume.under id = none) :
    volume.descriptor id = .error (.badDescriptor id) := by
  rw [under] at h
  simp [descriptor, h]

/-- Only the descriptor under the number gets another file. -/
theorem under_setFile (volume : Volume) (id : Nat) (file : File) (j : Nat) :
    (volume.setFile id file).under j =
      if j = id then (volume.under id).map ({ · with file }) else volume.under j := by
  obtain ⟨count, mapFile, rootFile, descriptors, nextId⟩ := volume
  simp only [under, setFile]
  induction descriptors with
  | nil => simp
  | cons pair rest ih =>
    obtain ⟨key, d⟩ := pair
    rw [List.map_cons, List.lookup_cons, List.lookup_cons, List.lookup_cons]
    by_cases hj : j = key
    · subst hj
      by_cases hid : j = id
      · subst hid
        simp
      · simp [hid]
    · have other : (j == key) = false := beq_eq_false_iff_ne.mpr hj
      simp only [other]
      rw [ih]
      by_cases hid : j = id
      · subst hid
        simp [other]
      · simp [hid]

/-- Closing frees the number and no other. -/
theorem under_close (volume : Volume) (id j : Nat) :
    ({ volume with descriptors := volume.descriptors.filter (·.1 != id) } : Volume).under j =
      if j = id then none else volume.under j := by
  obtain ⟨count, mapFile, rootFile, descriptors, nextId⟩ := volume
  simp only [under]
  induction descriptors with
  | nil => simp
  | cons pair rest ih =>
    obtain ⟨key, d⟩ := pair
    rw [List.filter_cons, List.lookup_cons]
    by_cases hkey : key = id
    · subst hkey
      rw [if_neg (by simp), ih]
      by_cases hj : j = key
      · simp [hj]
      · simp [hj, beq_eq_false_iff_ne.mpr hj]
    · rw [if_pos (by simpa using hkey), List.lookup_cons]
      by_cases hj : j = key
      · subst hj
        simp [hkey]
      · simp only [beq_eq_false_iff_ne.mpr hj]
        exact ih

/-- The volume with one more descriptor, under the next number. -/
def opened (volume : Volume) (d : Descriptor) : Volume :=
  { volume with
    descriptors := (volume.nextId, d) :: volume.descriptors
    nextId := volume.nextId + 1 }

theorem under_opened (volume : Volume) (d : Descriptor) (j : Nat) :
    (volume.opened d).under j = if j = volume.nextId then some d else volume.under j := by
  rw [under, opened, List.lookup_cons]
  by_cases hj : j = volume.nextId
  · simp [hj]
  · simp [hj, beq_eq_false_iff_ne.mpr hj, under]

namespace Over

variable {c : Catalog} {n : Nat} (known : volume.Over c n)
include known

theorem under_nextId : volume.under volume.nextId = none := by
  cases h : volume.under volume.nextId with
  | none => rfl
  | some d => exact absurd (known.ids _ d h) (Nat.lt_irrefl _)

/-- A descriptor can be given any 64-bit position. -/
theorem seek {id : Nat} {d : Descriptor} (h : volume.under id = some d) {position : Nat}
    (small : position < Size.limit) : (volume.setFile id (d.file.seek position)).Over c n where
  count := known.count
  mapFile := known.mapFile
  rootFile := known.rootFile
  descriptors j e he := by
    rw [under_setFile] at he
    split at he
    · rw [h] at he
      obtain rfl := Option.some.inj he
      obtain ⟨ne, -, node⟩ := known.descriptors id d h
      exact ⟨ne, small, node⟩
    · exact known.descriptors j e he
  ids j e he := by
    rw [under_setFile] at he
    split at he
    · rename_i same
      subst same
      exact known.ids _ d h
    · exact known.ids j e he

theorem close (id : Nat) :
    ({ volume with descriptors := volume.descriptors.filter (·.1 != id) } : Volume).Over c n where
  count := known.count
  mapFile := known.mapFile
  rootFile := known.rootFile
  descriptors j e he := by
    rw [under_close] at he
    split at he
    · cases he
    · exact known.descriptors j e he
  ids j e he := by
    rw [under_close] at he
    split at he
    · cases he
    · exact known.ids j e he

theorem opened {d : Descriptor} (ne : d.file.sector ≠ freeMapSector)
    (start : d.file.position < Size.limit) (node : ∃ node, c d.file.sector = some node ∧
      d.file.header = node.extent.header ∧ node.table.isSome = d.isDirectory) :
    (volume.opened d).Over c n where
  count := known.count
  mapFile := known.mapFile
  rootFile := known.rootFile
  descriptors j e he := by
    rw [under_opened] at he
    split at he
    · obtain rfl := Option.some.inj he
      exact ⟨ne, start, node⟩
    · exact known.descriptors j e he
  ids j e he := by
    rw [under_opened] at he
    change j < volume.nextId + 1
    split at he
    · omega
    · have := known.ids j e he
      omega

end Over

end Volume

namespace Catalog

open Volume

variable {c : Catalog} {n id : Nat} {store : Store} {map : FreeMap} {volume : Volume}
variable {d : Descriptor} {K : Nat → Prop}

/-- Files are short enough for a cursor to reach their end. -/
theorem length_lt {node : Node} {file : File} (hf : file.header = node.extent.header) :
    file.length < Size.limit := by
  have small := node.extent.size_lt
  have : file.length = node.extent.size := by
    rw [File.length, hf]
    rfl
  simp only [Word.sectorLimit, Size.limit] at *
  omega

/-- Reading gives the bytes at the cursor, as far as the file reaches, and moves the cursor over
them. -/
theorem runs_read (l : c.LaidOut n store map) (known : volume.Over c n)
    (hd : volume.under id = some d) (count : Nat) :
    ∃ node, c d.file.sector = some node ∧
      ∀ bytes, bytes = (((store.bytes node.extent.data).take node.extent.size).drop
          d.file.position).take count →
        Runs n store (volume.read id count) (.ok (bytes,
          volume.setFile id (d.file.seek (d.file.position + bytes.length)))) [] ∧
        (volume.setFile id (d.file.seek (d.file.position + bytes.length))).Over c n := by
  obtain ⟨-, start, node, hnode, hf, -⟩ := known.descriptors id d hd
  have length : d.file.length = node.extent.size := by
    rw [File.length, hf]
    rfl
  refine ⟨node, hnode, fun bytes hbytes => ?_⟩
  have transfer := ((l.addresses hnode d.file hf).scans_readAt store d.file.position count).runs
  rw [length, ← hbytes] at transfer
  have short : bytes.length ≤ d.file.length - d.file.position := by
    rw [hbytes, List.length_take, List.length_drop, List.length_take, length]
    omega
  have read : Runs n store (d.file.read count)
      (.ok (bytes, d.file.seek (d.file.position + bytes.length))) [] := by
    rw [File.read_eq (length_lt hf) start]
    exact transfer.map _
  refine ⟨?_, known.seek hd (File.position_add_lt (length_lt hf) start short)⟩
  rw [Volume.read, descriptor_eq_ok_iff.mpr hd]
  exact .andThen (.liftError _) (.andThen read (.done _))

theorem runs_read_closed (hd : volume.under id = none) (count : Nat) :
    Runs n store (volume.read id count) (.error (.error (.badDescriptor id))) [] := by
  rw [Volume.read, descriptor_of_none hd]
  exact .stop (.liftError _)

/-- Writing lays data over the bytes at the cursor, as far as the file reaches, and moves the cursor
over them. -/
theorem runs_write (l : c.LaidOut n store map) (known : volume.Over c n)
    (hd : volume.under id = some d) (kind : d.isDirectory = false) (data : List UInt8) :
    ∃ extent count ws, c d.file.sector = some ⟨extent, none⟩ ∧
      count = d.file.clip d.file.position data.length ∧
      Runs n store (volume.write id data) (.ok (count,
        volume.setFile id (d.file.seek (d.file.position + count)))) ws ∧
      (volume.setFile id (d.file.seek (d.file.position + count))).Over c n ∧
      (∀ w ∈ ws, w.1 ∈ extent.data) ∧
      ((store.after ws).bytes extent.data).take extent.size =
        overlay ((store.bytes extent.data).take extent.size) d.file.position (data.take count) := by
  obtain ⟨-, start, ⟨extent, table⟩, hnode, hf, hkind⟩ := known.descriptors id d hd
  obtain rfl : table = none := by simpa using hkind.trans kind
  have length : d.file.length = extent.size := by
    rw [File.length, hf]
    rfl
  obtain ⟨ws, transfer, targets, after⟩ := (l.addresses hnode d.file hf).settles_writeAt
    (K := fun _ => True) store d.file.position data (.inr fun _ _ => trivial)
  have transfer := transfer.runs
  have short := d.file.clip_le_rest d.file.position data.length
  refine ⟨extent, _, ws, hnode, rfl, ?_,
    known.seek hd (File.position_add_lt (length_lt hf) start short), targets, ?_⟩
  · rw [Volume.write, descriptor_eq_ok_iff.mpr hd]
    have writable : ¬ d.isDirectory = true := by
      rw [kind]
      exact Bool.false_ne_true
    have write : Runs n store (d.file.write data)
        (.ok (d.file.clip d.file.position data.length, d.file.seek
          (d.file.position + d.file.clip d.file.position data.length))) ws := by
      rw [File.write_eq (length_lt hf) start]
      exact transfer.map _
    exact .andThen (.liftError _) (.guardPasses writable (.finish write (.done _)))
  · have inside : d.file.length ≤ (store.bytes extent.data).length := by
      rw [length, Store.length_bytes]
      exact extent.size_le
    rw [after, ← length]
    exact d.file.take_overlay_clip inside _ _

theorem runs_write_refused (closed : ∀ d, volume.under id = some d → d.isDirectory = true)
    (data : List UInt8) :
    ∃ cause, Runs n store (volume.write id data) (.error (.error cause)) [] := by
  unfold Volume.write
  cases hd : volume.under id with
  | none =>
    rw [descriptor_of_none hd]
    exact ⟨_, .stop (.liftError _)⟩
  | some d =>
    rw [descriptor_eq_ok_iff.mpr hd]
    exact ⟨_, .andThen (.liftError _) (.guardFails (closed d hd))⟩

/-- The header sector of what can be opened at a path: the root, or a node under a name in use. -/
def target? (c : Catalog) (path : String) : Option Nat :=
  if path = "/" then some rootSector else c.find? (Path.parent path ++ [Path.leaf path])

/-- A path other than the root is resolved in the directory before its name. -/
theorem runs_resolve_of_find? (l : c.LaidOut n store map) (known : volume.Over c n) {path : String}
    (absolute : Path.Absolute path) (named : path ≠ "/") {t : Nat} {dir : Directory}
    (way : c.find? (Path.parent path) = some t) (table : c.table? t = some dir) :
    (∃ entry node, c.child? t (Path.leaf path) = some entry ∧ c entry.sector = some node ∧
      node.table.isSome = entry.isDirectory ∧ entry.sector ≠ freeMapSector ∧
      Runs n store (volume.resolve path)
        (.ok ⟨⟨entry.sector, node.extent.header, 0⟩, entry.isDirectory⟩) []) ∨
    (c.child? t (Path.leaf path) = none ∧
      Runs n store (volume.resolve path) (.error (.error .notFound)) []) := by
  have within := mt (Path.splitLast_isEmpty_iff absolute).mp named
  obtain ⟨root, hroot⟩ := l.valid.root
  obtain ⟨extent, file, hnode, hf, load⟩ := l.runs_loadDirectory known table
  rw [resolve, Path.split_of_absolute absolute]
  unfold Path.parent at way
  unfold Path.leaf
  generalize Path.splitLast path = split at within way
  obtain ⟨parent, name⟩ := split
  have enter : Runs n store (volume.enter parent) (.ok t) [] :=
    runs_enterAlong_of_find? (Path.components parent) l known find?_nil hroot way table
  have child : c.child? t name = dir.lookup? name := by
    simp [child?, table]
  cases hlookup : dir.lookup? name with
  | some entry =>
    rw [hlookup] at child
    obtain ⟨hmap, -, node, hentry, kind⟩ := l.valid.exists_node_of_child? child
    refine .inl ⟨entry, node, child, hentry, kind, hmap, ?_⟩
    refine .andThen (.lift _) (.guardPasses within (.andThen enter (.andThen load ?_)))
    simp only [hlookup]
    exact .andThen (l.runs_file hentry) (.done _)
  | none =>
    refine .inr ⟨child.trans hlookup, ?_⟩
    refine .andThen (.lift _) (.guardPasses within (.andThen enter (.andThen load ?_)))
    simp only [hlookup]
    exact .refuse _

/-- Directories that are missing before the name are made, and the name is not found in them. -/
theorem tries_resolve_of_missing (l : c.LaidOut n store map) (known : volume.Over c n)
    {path : String} (absolute : Path.Absolute path) (named : path ≠ "/")
    (missing : ¬ ∃ t dir, c.find? (Path.parent path) = some t ∧ c.table? t = some dir) :
    ∃ ws c' map' cause k, Tries n store K (volume.resolve path) (.error (.error cause)) ws
        (c.Stopped n store c.toNamespace [] (Path.parent path)) ∧
      c.Grew n store c.toNamespace ((Path.parent path).take k) ws c' map' := by
  have within := mt (Path.splitLast_isEmpty_iff absolute).mp named
  rw [resolve, Path.split_of_absolute absolute]
  obtain ⟨ws, c', map', ⟨t, dir, enter, grew, way, table, fresh⟩ | ⟨cause, k, enter, grew, -⟩⟩ :=
    tries_enter (K := K) l known (Path.splitLast path).1
  · obtain ⟨extent, file, -, -, load⟩ :=
      grew.laidOut.runs_loadDirectory (known.kept grew.kept) table
    have stop : c.Stopped n store c.toNamespace [] (Path.parent path) (ws ++ []) :=
      grew.stopped_at_end nofun
    rcases fresh with ⟨rfl, -⟩ | ⟨-, rfl⟩
    · refine ⟨ws, c', map', .notFound, (Path.parent path).length, ?_, ?_⟩
      · refine .andThen (.lift _) (.guardPasses within (.finish enter (.quiet (.andThen load ?_)
          stop)))
        simp only [Directory.lookup?_new]
        exact .refuse _
      · rw [List.take_length]
        exact grew
    · exact absurd ⟨t, dir, way, table⟩ missing
  · exact ⟨ws, c', map', cause, k, .andThen (.lift _) (.guardPasses within (.stop enter)), grew⟩

/-- Resolving finds what a path names and writes nothing, or is refused after it may have made
directories on the way. -/
theorem tries_resolve (l : c.LaidOut n store map) (known : volume.Over c n) {path : String}
    (absolute : Path.Absolute path) :
    (∃ d, Runs n store (volume.resolve path) (.ok d) [] ∧
      c.target? path = some d.file.sector ∧ d.file.position = 0 ∧
      d.file.sector ≠ freeMapSector ∧ ∃ node, c d.file.sector = some node ∧
        d.file.header = node.extent.header ∧ node.table.isSome = d.isDirectory) ∨
    (c.target? path = none ∧ ∃ ws c' map' cause k,
      Tries n store K (volume.resolve path) (.error (.error cause)) ws
        (c.Stopped n store c.toNamespace [] (Path.parent path)) ∧
      c.Grew n store c.toNamespace ((Path.parent path).take k) ws c' map') := by
  unfold target?
  by_cases named : path = "/"
  · obtain ⟨extent, dir, hroot, hfile⟩ := known.rootFile
    rw [if_pos named]
    refine .inl ⟨⟨volume.rootFile, true⟩, ?_, by rw [hfile], by rw [hfile], ?_, ?_⟩
    · rw [resolve, Path.split_of_absolute absolute]
      refine .andThen (.lift _) ?_
      simp only [(Path.splitLast_isEmpty_iff absolute).mpr named, if_true]
      exact .done _
    · rw [hfile]
      exact show rootSector ≠ freeMapSector by decide
    · rw [hfile]
      exact ⟨_, hroot, rfl, rfl⟩
  · rw [if_neg named]
    by_cases there : ∃ t dir, c.find? (Path.parent path) = some t ∧ c.table? t = some dir
    · obtain ⟨t, dir, way, table⟩ := there
      rcases runs_resolve_of_find? l known absolute named way table with
        ⟨entry, node, child, hnode, kind, hmap, run⟩ | ⟨absent, run⟩
      · exact .inl ⟨_, run, find?_concat_eq_some_iff.mpr ⟨t, entry, way, child, rfl⟩, rfl, hmap,
          node, hnode, rfl, kind⟩
      · exact .inr ⟨find?_concat_eq_none way absent, [], c, map, .notFound, 0,
          .quiet run (.here l .root _ nofun), .refl l .root⟩
    · exact .inr ⟨find?_concat_eq_none_of_missing there,
        tries_resolve_of_missing l known absolute named there⟩

/-- Opening puts what a path names under the next number, at its start, or is refused. -/
theorem tries_openPath (l : c.LaidOut n store map) (known : volume.Over c n) {path : String}
    (absolute : Path.Absolute path) :
    (∃ d, Runs n store (volume.openPath path) (.ok (volume.nextId, volume.opened d)) [] ∧
      (volume.opened d).Over c n ∧ c.target? path = some d.file.sector ∧ d.file.position = 0 ∧
      ∃ node, c d.file.sector = some node ∧ node.table.isSome = d.isDirectory) ∨
    ((lastId ≤ volume.nextId ∨ c.target? path = none) ∧ ∃ ws c' map' cause k,
      Tries n store K (volume.openPath path) (.error (.error cause)) ws
        (c.Stopped n store c.toNamespace [] (Path.parent path)) ∧
      c.Grew n store c.toNamespace ((Path.parent path).take k) ws c' map') := by
  unfold openPath
  by_cases last : lastId ≤ volume.nextId
  · exact .inr ⟨.inl last, [], c, map, _, 0, .guardFails last, .refl l .root⟩
  · rcases tries_resolve l known absolute with ⟨d, run, target, start, ne, node, hnode, hf, kind⟩ |
      ⟨missing, ws, c', map', cause, k, run, grew⟩
    · refine .inl ⟨d, .guardPasses last (.andThen run (.done _)), ?_, target, start, node, hnode,
        kind⟩
      apply known.opened ne _ ⟨node, hnode, hf, kind⟩
      rw [start]
      decide
    · exact .inr ⟨.inr missing, ws, c', map', cause, k, .guardPasses last (.stop run), grew⟩

theorem runs_openPath_relative {path : String} (relative : ¬ Path.Absolute path) :
    Runs n store (volume.openPath path) (.error (.error .noDescriptor)) [] ∨
      Runs n store (volume.openPath path) (.error (.fault (.relativePath path))) [] := by
  unfold openPath
  by_cases last : lastId ≤ volume.nextId
  · exact .inl (.guardFails last)
  · rw [resolve, Path.split_of_not_absolute relative]
    exact .inr (.guardPasses last (.stop (.stop (.lift _))))

end Catalog

end SectorFS
