import SectorFS.Proofs.Volume.Files

/-!
# What a disk shows

The views of a volume, read off its disk by the very programs that the volume uses. On a disk that a
catalog is laid out on they show the catalog: `toNamespace_eq`, `files_eq`, `freeMap?_eq`.
-/

namespace SectorFS

namespace Disk

/-- What a program ends well with on the disk. -/
def look (disk : Disk) (program : DiskM α) : Option α :=
  match program disk with
  | .ok a _ => some a
  | .error _ _ => none

variable (disk : Disk)

/-- The header at a sector. -/
def header? (s : Nat) : Option Header := disk.look (Header.load s)

/-- The table in the file whose header is at a sector. -/
def table? (s : Nat) : Option Directory := disk.look (do Directory.load (← File.load s))

/-- The persisted free map. -/
def freeMap? : Option FreeMap :=
  disk.look (do FreeMap.load (← File.load freeMapSector) disk.sectorCount)

/-- The entry that the names lead to from the root, which has one of its own. -/
def find? (path : List String) : Option Entry :=
  path.foldlM
    (fun e name => if e.isDirectory then (disk.table? e.sector).bind (·.lookup? name) else none)
    ⟨"/", rootSector, true⟩

/-- What the paths on the disk lead to. -/
def toNamespace : Namespace := fun path => (disk.find? path).bind fun e =>
  if e.isDirectory then (disk.table? e.sector).map (.directory ·.labels)
  else (disk.header? e.sector).map (.file ·.length)

/-- The header sector and the bytes of the file at a path. -/
def files (path : List String) : Option (Nat × List UInt8) := (disk.find? path).bind fun e =>
  if e.isDirectory then none
  else (disk.header? e.sector).map fun header =>
    (e.sector, (disk.store.bytes header.dataSectors).take header.length)

theorem find?_concat (path : List String) (name : String) :
    disk.find? (path ++ [name]) = (disk.find? path).bind fun e =>
      if e.isDirectory then (disk.table? e.sector).bind (·.lookup? name) else none := by
  unfold find?
  rw [List.foldlM_append]
  change ((disk.find? path).bind fun e => _) = _
  congr 1
  funext e
  exact bind_pure _

/-- A look through two programs is a look through the second where the first one ends. -/
theorem exists_of_look_bind {disk : Disk} {program : DiskM α} {next : α → DiskM β} {b : β}
    (h : disk.look (program >>= next) = some b) :
    ∃ a disk', program disk = .ok a disk' ∧ disk'.look (next a) = some b := by
  cases ends : program disk with
  | ok a disk' =>
    rw [look, Does.bind_of_ok ends] at h
    exact ⟨a, disk', rfl, h⟩
  | error e disk' =>
    rw [look, Does.bind_of_error ends] at h
    cases h

theorem look_of_runs {disk : Disk} {n : Nat} {program : DiskM α} {a : α} {ws : Writes}
    (sound : disk.Sound n) (h : Runs n disk.store program (.ok a) ws) :
    disk.look program = some a := by
  obtain ⟨disk', ends, -⟩ := h.ends sound
  unfold look
  rw [ends]
  rfl

end Disk

namespace Catalog.LaidOut

variable {c : Catalog} {n : Nat} {disk : Disk} {map : FreeMap} {s : Nat} {path : List String}
variable (l : c.LaidOut n disk.store map) (sound : disk.Sound n)
include l sound

theorem header?_eq {node : Node} (h : c s = some node) :
    disk.header? s = some node.extent.header :=
  Disk.look_of_runs sound (Extent.runs_load (l.valid.lt s (owns_header h))
    (fun _ => l.lt_of_mem h) (l.stored s node h).extent)

theorem table?_eq {dir : Directory} (h : c.table? s = some dir) : disk.table? s = some dir := by
  obtain ⟨extent, hnode⟩ := table?_eq_some_iff.mp h
  exact Disk.look_of_runs sound (.andThen (l.runs_file hnode) (l.runs_table hnode _ rfl))

theorem freeMap?_eq : disk.freeMap? = some map := by
  obtain ⟨extent, hmap, -⟩ := l.valid.map
  unfold Disk.freeMap?
  rw [sound.sectorCount_eq]
  exact Disk.look_of_runs sound (.andThen (l.runs_file hmap) ((l.scans_map hmap _ rfl).runs))

/-- Along every path the disk leads to what the catalog leads to. -/
theorem find?_cases (path : List String) :
    (∃ e node, disk.find? path = some e ∧ c.find? path = some e.sector ∧
      c e.sector = some node ∧ node.table.isSome = e.isDirectory) ∨
    (disk.find? path = none ∧ c.find? path = none) := by
  induction path using List.reverseRecOn with
  | nil =>
    obtain ⟨dir, root⟩ := l.valid.root
    obtain ⟨extent, hroot⟩ := table?_eq_some_iff.mp root
    exact .inl ⟨_, _, rfl, find?_nil, hroot, rfl⟩
  | append_singleton path name ih =>
    rw [Disk.find?_concat]
    rcases ih with ⟨e, ⟨extent, table⟩, there, way, hnode, kind⟩ | ⟨lost, lost'⟩
    · rw [there, Option.bind_some, ← kind]
      cases table with
      | none =>
        have plain : c.child? e.sector name = none := by
          rw [child?, table?, hnode]
          rfl
        exact .inr ⟨rfl, find?_concat_eq_none way plain⟩
      | some dir =>
        have table := table?_eq_some_iff.mpr ⟨extent, hnode⟩
        have child : c.child? e.sector name = dir.lookup? name := by
          simp [child?, table]
        rw [l.table?_eq sound table, Option.bind_some]
        simp only [Option.isSome_some, if_true]
        cases hlookup : dir.lookup? name with
        | none => exact .inr ⟨rfl, find?_concat_eq_none way (child.trans hlookup)⟩
        | some f =>
          have found := child.trans hlookup
          obtain ⟨-, -, node, hf, kind'⟩ := l.valid.exists_node_of_child? found
          exact .inl ⟨f, node, rfl, find?_concat_eq_some_iff.mpr ⟨_, f, way, found, rfl⟩, hf, kind'⟩
    · rw [lost]
      exact .inr ⟨rfl, find?_append_eq_none [name] lost'⟩

theorem find?_eq_none_iff : disk.find? path = none ↔ c.find? path = none := by
  rcases l.find?_cases sound path with ⟨e, node, found, way, -⟩ | ⟨lost, lost'⟩
  · simp [found, way]
  · simp [lost, lost']

/-- Where a path leads, the disk has an entry and a header for it. -/
theorem exists_entry {s : Nat} {node : Node} (h : c.find? path = some s) (hs : c s = some node) :
    ∃ e, disk.find? path = some e ∧ e.sector = s ∧ node.table.isSome = e.isDirectory ∧
      disk.header? s = some node.extent.header := by
  rcases l.find?_cases sound path with ⟨e, node', found, way, hnode, kind⟩ | ⟨-, lost⟩
  · rw [h, Option.some.injEq] at way
    subst way
    rw [hs, Option.some.injEq] at hnode
    subst hnode
    exact ⟨e, found, rfl, kind, l.header?_eq sound hs⟩
  · rw [h] at lost
    cases lost

/-- A name leads to the entry that a slot holds. -/
theorem find?_of_held {p i : Nat} {dir : Directory} {e : Entry} (way : c.find? path = some p)
    (table : c.table? p = some dir) (held : dir.held i = some e) :
    disk.find? (path ++ [e.name]) = some e := by
  obtain ⟨extent, hp⟩ := table?_eq_some_iff.mp table
  obtain ⟨f, found, rfl, directory, -⟩ := l.exists_entry sound way hp
  have lookup : dir.lookup? e.name = some e :=
    (l.valid.tidy _ dir table).lookup?_eq_some_iff.mpr ⟨i, held, rfl⟩
  rw [Disk.find?_concat, found, Option.bind_some, ← directory, l.table?_eq sound table]
  exact lookup

/-- The disk shows the namespace of the catalog. -/
theorem toNamespace_eq : disk.toNamespace = c.toNamespace := by
  funext path
  unfold Disk.toNamespace
  rcases l.find?_cases sound path with ⟨e, ⟨extent, table⟩, there, way, hnode, kind⟩ | ⟨lost, lost'⟩
  · rw [there, toNamespace_of_find? way hnode, Option.bind_some, ← kind]
    cases table with
    | none =>
      rw [l.header?_eq sound hnode]
      rfl
    | some dir =>
      rw [l.table?_eq sound (table?_eq_some_iff.mpr ⟨extent, hnode⟩)]
      rfl
  · rw [lost, toNamespace_eq_none_of_find? lost']
    rfl

/-- The disk shows the files of the catalog. -/
theorem files_eq : disk.files = c.files disk.store := by
  funext path
  unfold Disk.files
  rcases l.find?_cases sound path with ⟨e, ⟨extent, table⟩, there, way, hnode, kind⟩ | ⟨lost, lost'⟩
  · rw [there, files_of_find? way hnode, Option.bind_some, ← kind]
    cases table with
    | none =>
      have same : extent.header.dataSectors = extent.data := extent.dataSectors_chain
      rw [l.header?_eq sound hnode]
      simp [same]
    | some dir => rfl
  · rw [lost, files_eq_none_of_find? lost']
    rfl

end Catalog.LaidOut

end SectorFS
