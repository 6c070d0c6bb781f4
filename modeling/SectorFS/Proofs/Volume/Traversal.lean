import SectorFS.Proofs.Volume.Placement
import SectorFS.Proofs.Volume.Unreadable

/-!
# Finding and entering

`find` and `enter` follow a way down as long as it leads to directories, and a file on it stops both
of them. Where the way ends without a file, finding gives up and entering makes what is missing, one
empty directory inside the other, until it comes to the end or a check of `refusal?` stops it.
`Volume.Enters` has the ways in which this can go, and `Run.enter_ends` says that there are no more.
-/

namespace SectorFS

open Catalog Volume

/-- The directories `names` are made one inside the other, the first of them in the directory at
`path`. -/
def Namespace.dig (T : Namespace) (path : List String) : (names : List String) → Namespace
  | [] => T
  | name :: rest => (T.add path name emptyDirectory).dig (path ++ [name]) rest

/-- The way leads to a directory, and the first of the names is missing there. -/
structure Namespace.Ends (T : Namespace) (way names : List String) : Prop where
  directory : ∃ slots, T way = some (.directory slots)
  missing : ∃ name rest, names = name :: rest ∧ T (way ++ [name]) = none

/-- Only a table without an empty slot is full. -/
theorem none_notMem_of_directoryFull {slots : List (Option String)} {name : String}
    {free span : Nat} (h : refusal? slots name free span = some .directoryFull) : none ∉ slots := by
  intro room
  rw [refusal?] at h
  split_ifs at h
  all_goals cases h

/-- From `disk` to `disk'` nothing happened but that the directories `names` were made one inside
the other, the first of them in the directory at `way`. Each took twelve sectors, and `left` are
free in the end. -/
structure Disk.Dug (disk disk' : Disk) (n : Nat) (volume : Volume) (way names : List String)
    (left : Nat) : Prop where
  namespace_eq : disk'.toNamespace = disk.toNamespace.dig way names
  advanced : disk.Advanced disk' n (way ++ names)
  before : disk.look volume.freeCount = some (left + 12 * names.length)
  after : disk'.look volume.freeCount = some left

/-- How entering the directory at `path` ends, and on which disk, where finding it ends with the
first result. -/
inductive Volume.Enters (volume : Volume) (n : Nat) (disk : Disk) (path : List String) :
    (found entered : Except Failure Nat) → (disk' : Disk) → Prop where
  /-- The directory is there. -/
  | there {s disk'} : disk.Untouched disk' → Enters volume n disk path (.ok s) (.ok s) disk'
  /-- A file is in the way. -/
  | blocked {disk'} : disk.Untouched disk' → Enters volume n disk path
      (.error (.error .notADirectory)) (.error (.error .notADirectory)) disk'
  /-- The rest of the way is made. -/
  | made {way names left s disk'} : path = way ++ names → disk.toNamespace.Ends way names →
      disk.Dug disk' n volume way names left →
      Enters volume n disk path (.error (.error .notFound)) (.ok s) disk'
  /-- The rest of the way is made up to a directory that is refused. Only the first can be refused
  because a table is full. -/
  | refused {way names name rest slots left cause disk'} : path = way ++ (names ++ name :: rest) →
      disk.toNamespace.Ends way (names ++ name :: rest) → disk.Dug disk' n volume way names left →
      disk'.toNamespace (way ++ names) = some (.directory slots) → some name ∉ slots →
      refusal? slots name left (Extent.span (directoryCapacity * slotSize)) = some cause →
      (cause = .directoryFull → names = []) →
      Enters volume n disk path (.error (.error .notFound)) (.error (.error cause)) disk'

/-- Finding the directory that the text names ends at `s`, and so does entering it, which writes
nothing. -/
def Volume.Leads (volume : Volume) (disk : Disk) (text : String) (s : Nat) : Prop :=
  ∃ disk₁ disk₂, volume.find text disk = .ok s disk₁ ∧ volume.enter text disk = .ok s disk₂ ∧
    disk.Untouched disk₂

namespace Catalog

variable {c : Catalog} {n s : Nat} {store : Store} {map : FreeMap} {volume : Volume}
variable {start : Directory} {path : List String} {T : Namespace}

/-- On the catalog the directories `names` were made one inside the other, the first of them in the
directory at `path`, and each took twelve sectors. -/
structure Dug (c : Catalog) (n : Nat) (store : Store) (map : FreeMap) (T : Namespace)
    (path names : List String) (ws : Writes) (c' : Catalog) (map' : FreeMap) : Prop where
  grew : c.Grew n store T (path ++ names) ws c' map'
  namespace_eq : c'.toNamespace = c.toNamespace.dig path names
  counted : map'.freeCount + 12 * names.length = map.freeCount

theorem Dug.nil (l : c.LaidOut n store map) (grown : T.Grown path c.toNamespace) :
    c.Dug n store map T path [] [] c map where
  grew := by
    rw [List.append_nil]
    exact .refl l grown
  namespace_eq := rfl
  counted := rfl

theorem Dug.cons {c₁ c₂ : Catalog} {map₁ map₂ : FreeMap} {name : String} {names : List String}
    {ws vs : Writes} (v : c.Valid n) (first : c.Dug n store map T path [name] ws c₁ map₁)
    (others : c₁.Dug n (store.after ws) map₁ T (path ++ [name]) names vs c₂ map₂) :
    c.Dug n store map T path (name :: names) (ws ++ vs) c₂ map₂ where
  grew := by
    have whole := first.grew.trans v (List.prefix_append _ _) others.grew
    rw [List.append_assoc] at whole
    exact whole
  namespace_eq := by
    rw [others.namespace_eq, first.namespace_eq]
    rfl
  counted := by
    have one := first.counted
    have more := others.counted
    rw [List.length_singleton] at one
    rw [List.length_cons]
    omega

/-- One name that is missing: its directory is refused, or it is made and the rest of the way starts
there. -/
theorem enterAlong_missing (name : String) (l : c.LaidOut n store map) (known : volume.Over c n)
    (hs : c.find? path = some s) (hstart : c.table? s = some start)
    (grown : T.Grown path c.toNamespace) (lost : c.find? (path ++ [name]) = none)
    (whole : Path.separator ∉ name.toList) :
    (∃ cause, some name ∉ start.labels ∧
      refusal? start.labels name map.freeCount (Extent.span (directoryCapacity * slotSize)) =
        some cause ∧
      ∀ rest, Runs n store (volume.enterAlong s (name :: rest)) (.error (.error cause)) []) ∨
    ∃ ws c' map' t, c.Dug n store map T path [name] ws c' map' ∧
      c'.find? (path ++ [name]) = some t ∧ c'.table? t = some (.new directoryCapacity) ∧
      ∀ rest result vs, Runs n (store.after ws) (volume.enterAlong t rest) result vs →
        Runs n store (volume.enterAlong s (name :: rest)) result (ws ++ vs) := by
  obtain ⟨extent, file, hnode, hf, load⟩ := l.runs_loadDirectory known hstart
  have tidy := l.valid.tidy s start hstart
  have hlookup : start.lookup? name = none := by
    simpa [find?_concat, hs, child?, hstart] using lost
  have fresh : some name ∉ start.labels := by
    rw [← tidy.isSome_lookup?_iff, hlookup]
    exact Bool.false_ne_true
  have outcome := reserveNode_of_fresh map tidy fresh whole
    (show directoryCapacity * slotSize + sectorSize < Size.limit by decide) true
  cases refused : refusal? start.labels name map.freeCount
      (Extent.span (directoryCapacity * slotSize)) with
  | some cause =>
    rw [refused] at outcome
    refine .inl ⟨cause, fresh, rfl, fun rest => ?_⟩
    unfold enterAlong
    refine .andThen load ?_
    simp only [hlookup]
    exact .stop (runs_addDirectory_of_error l known outcome)
  | none =>
    rw [refused] at outcome
    obtain ⟨found, hfound, reserved⟩ := outcome
    obtain ⟨ws, c', map', t, add, grew, way, table, names, counted⟩ :=
      addDirectory_grew (K := fun _ => True) (Q := fun _ => True) l known hs hnode hf grown hfound
        reserved fun _ _ => trivial
    refine .inr ⟨ws, c', map', t, ⟨grew, names, counted⟩, way, table, fun rest result vs run => ?_⟩
    unfold enterAlong
    refine .andThen load ?_
    simp only [hlookup]
    exact .step add.runs run

/-- Where the first of the names is missing, directories are made until all are there, or until one
is refused. In a directory that was just made there is room for another one. -/
theorem runs_enterAlong_of_missing (names : List String) (l : c.LaidOut n store map)
    (known : volume.Over c n) (hs : c.find? path = some s) (hstart : c.table? s = some start)
    (grown : T.Grown path c.toNamespace)
    (lost : ∀ name ∈ names.head?, c.find? (path ++ [name]) = none)
    (whole : ∀ name ∈ names, Path.separator ∉ name.toList) :
    ∃ made left ws c' map' t dir, names = made ++ left ∧
      c.Dug n store map T path made ws c' map' ∧ c'.find? (path ++ made) = some t ∧
      c'.table? t = some dir ∧
      (left = [] ∧ Runs n store (volume.enterAlong s names) (.ok t) ws ∨
        ∃ name rest cause, left = name :: rest ∧ some name ∉ dir.labels ∧
          refusal? dir.labels name map'.freeCount (Extent.span (directoryCapacity * slotSize)) =
            some cause ∧
          (cause = .directoryFull → made = [] ∧ none ∉ start.labels) ∧
          Runs n store (volume.enterAlong s names) (.error (.error cause)) ws) := by
  have here : c.find? (path ++ []) = some s := by
    rw [List.append_nil]
    exact hs
  induction names generalizing c store map path s start with
  | nil =>
    exact ⟨[], [], [], c, map, s, start, rfl, .nil l grown, here, hstart, .inl ⟨rfl, .done s⟩⟩
  | cons name rest ih =>
    have whole_name := whole name List.mem_cons_self
    rcases enterAlong_missing name l known hs hstart grown (lost name rfl) whole_name with
      ⟨cause, fresh, refused, run⟩ | ⟨ws, c₁, map₁, t₁, first, way, table, on⟩
    · refine ⟨[], name :: rest, [], c, map, s, start, rfl, .nil l grown, here, hstart,
        .inr ⟨name, rest, cause, rfl, fresh, refused, ?_, run rest⟩⟩
      rintro rfl
      exact ⟨rfl, none_notMem_of_directoryFull refused⟩
    · have l₁ := first.grew.laidOut
      have known₁ := known.kept first.grew.kept
      have empty (next : String) : c₁.find? (path ++ [name] ++ [next]) = none := by
        apply find?_concat_eq_none way
        rw [child?, table, Option.bind_some]
        exact Directory.lookup?_new _ _
      have room : none ∈ (Directory.new directoryCapacity).labels := by
        rw [Directory.labels_new]
        exact List.mem_replicate.mpr ⟨by decide, rfl⟩
      have whole_rest : ∀ next ∈ rest, Path.separator ∉ next.toList := fun next hm =>
        whole next (List.mem_cons_of_mem _ hm)
      obtain ⟨made, left, vs, c₂, map₂, t, dir, rfl, dug, way', table', ends⟩ :=
        ih l₁ known₁ way table first.grew.grown (fun next _ => empty next) whole_rest
          (by rwa [List.append_nil])
      rw [List.append_assoc] at way'
      refine ⟨name :: made, left, ws ++ vs, c₂, map₂, t, dir, rfl, first.cons l.valid dug, way',
        table', ?_⟩
      rcases ends with ⟨done, run⟩ | ⟨next, behind, cause, hleft, new, check, full, run⟩
      · exact .inl ⟨done, on _ _ _ run⟩
      · exact .inr ⟨next, behind, cause, hleft, new, check, fun h => absurd room (full h).2,
          on _ _ _ run⟩

end Catalog

namespace Volume.Mounted

variable {c : Catalog} {n : Nat} {map : FreeMap} {volume : Volume} {disk : Disk}
variable (m : volume.Mounted disk n c map)
include m

/-- A directory that is there is found, and entered without a write. -/
theorem find_there {text : String} {t : Nat} {dir : Directory}
    (way : c.find? (Path.components text) = some t) (table : c.table? t = some dir) :
    ∃ disk₁ disk₂, volume.find text disk = .ok t disk₁ ∧ volume.enter text disk = .ok t disk₂ ∧
      disk.Wrote n [] disk₂ := by
  have ⟨sound, l, known⟩ := m
  obtain ⟨root, hroot⟩ := l.valid.root
  have enter : Runs n disk.store (volume.enter text) (.ok t) [] :=
    runs_enterAlong_of_find? (Path.components text) l known find?_nil hroot way table
  obtain ⟨disk₂, entered, wrote⟩ := enter.ends sound
  rcases runs_find l known text with ⟨-, t', dir', way', -, find⟩ | ⟨cause, obstacle, -⟩
  · rw [way, Option.some.injEq] at way'
    rw [← way'] at find
    obtain ⟨disk₁, found, -⟩ := find.ends sound
    exact ⟨disk₁, disk₂, found, entered, wrote⟩
  · have there : c.toNamespace ([] ++ Path.components text) = some (.directory dir.labels) :=
      toNamespace_eq_directory_iff.mpr ⟨t, dir, way, table, rfl⟩
    rw [l.valid.tree.obstacle?_eq_none there] at obstacle
    cases obstacle

theorem leads {text : String} {t : Nat} {dir : Directory}
    (way : c.find? (Path.components text) = some t) (table : c.table? t = some dir) :
    volume.Leads disk text t := by
  obtain ⟨disk₁, disk₂, found, entered, wrote⟩ := m.find_there way table
  exact ⟨disk₁, disk₂, found, entered, wrote.untouched⟩

/-- Directories that were made on the catalog were made on the disk. -/
theorem dug {disk' : Disk} {path names : List String} {ws : Writes} {c' : Catalog} {map' : FreeMap}
    (dug : c.Dug n disk.store map c.toNamespace path names ws c' map')
    (wrote : disk.Wrote n ws disk') :
    volume.Mounted disk' n c' map' ∧ disk.Dug disk' n volume path names map'.freeCount := by
  have after := wrote.store_eq m.sound.covers
  have m' : volume.Mounted disk' n c' map' :=
    ⟨wrote.sound m.sound, after ▸ dug.grew.laidOut, m.known.kept dug.grew.kept⟩
  have none : ∀ w ∈ ([] : Writes), ¬ c'.Owns w.1 := nofun
  refine ⟨m', ?_, ?_, ?_, m'.look_freeCount⟩
  · rw [m'.toNamespace_eq, m.toNamespace_eq]
    exact dug.namespace_eq
  · apply m.laidOut.advanced m.sound dug.grew none _ m'.sound
    simpa using after
  · rw [dug.counted]
    exact m.look_freeCount

/-- Where the way is missing from a name on, entering makes it as far as it can. -/
theorem enters_missing {text name : String} {way rest : List String}
    (split : Path.components text = way ++ name :: rest) {slots : List (Option String)}
    (there : c.toNamespace way = some (.directory slots))
    (gone : c.toNamespace (way ++ [name]) = none) :
    ∃ entered disk', volume.enter text disk = ending entered disk' ∧
      volume.Enters n disk (Path.components text) (.error (.error .notFound)) entered disk' ∧
      ∀ s, entered = .ok s → volume.Leads disk' text s := by
  have ⟨sound, l, known⟩ := m
  obtain ⟨t, dir, hway, table, -⟩ := toNamespace_eq_directory_iff.mp there
  obtain ⟨root, hroot⟩ := l.valid.root
  have lost := l.valid.find?_eq_none_of_toNamespace gone
  have whole : ∀ part ∈ name :: rest, Path.separator ∉ part.toList := by
    intro part hm
    have among : part ∈ Path.components text := by
      simp [split, hm]
    exact Path.separator_notMem_of_mem_namesIn among
  have stops : disk.toNamespace.Ends way (name :: rest) := by
    rw [m.toNamespace_eq]
    exact ⟨⟨slots, there⟩, name, rest, rfl, gone⟩
  obtain ⟨made, left, ws, c', map', t', dir', parts, dug, way', table', outcome⟩ :=
    runs_enterAlong_of_missing (name :: rest) l known hway table
      (l.valid.tree.grown ⟨slots, there⟩) (by simpa using lost) whole
  have follow {result : Except Failure Nat}
      (run : Runs n disk.store (volume.enterAlong t (name :: rest)) result ws) :
      Runs n disk.store (volume.enter text) result ws := by
    rw [enter, split]
    exact runs_enterAlong_append way l known find?_nil hroot hway table run
  rcases outcome with ⟨rfl, run⟩ | ⟨next, behind, cause, rfl, fresh, check, full, run⟩
  · obtain ⟨disk', entered, wrote⟩ := (follow run).ends sound
    obtain ⟨m', done⟩ := m.dug dug wrote
    rw [List.append_nil] at parts
    rw [← parts] at way' done
    rw [← split] at way'
    refine ⟨_, disk', entered, .made split stops done, fun s hs => ?_⟩
    cases hs
    exact m'.leads way' table'
  · obtain ⟨disk', entered, wrote⟩ := (follow run).ends sound
    obtain ⟨m', done⟩ := m.dug dug wrote
    rw [parts] at split stops
    have there' : disk'.toNamespace (way ++ made) = some (.directory dir'.labels) := by
      rw [m'.toNamespace_eq]
      exact toNamespace_eq_directory_iff.mpr ⟨t', dir', way', table', rfl⟩
    exact ⟨_, disk', entered,
      .refused split stops done there' fresh check fun h => (full h).1, nofun⟩

end Volume.Mounted

variable {n : Nat} {past : List Action} {volume : Volume} {disk : Disk}

/-- Entering agrees with finding, and makes what is missing as far as it can. What was entered is
found at the same sector, and entering it again writes nothing. -/
theorem Run.enter_ends (large : 15 ≤ n) (small : n ≤ diskLimit) (run : Run n past volume disk)
    (text : String) :
    ∃ found disk₁ entered disk', volume.find text disk = ending found disk₁ ∧
      volume.enter text disk = ending entered disk' ∧
      volume.Enters n disk (Path.components text) found entered disk' ∧
      ∀ s, entered = .ok s → volume.Leads disk' text s := by
  obtain ⟨c, map, m, -⟩ := run.mounted large small
  have ⟨sound, l, known⟩ := m
  rcases runs_find l known text with ⟨-, t, dir, way, table, -⟩ | ⟨cause, obstacle, find⟩
  · obtain ⟨disk₁, disk', found, entered, wrote⟩ := m.find_there way table
    refine ⟨.ok t, disk₁, .ok t, disk', found, entered, .there wrote.untouched, fun s hs => ?_⟩
    cases hs
    exact (m.of_wrote_nil wrote).leads way table
  · obtain ⟨disk₁, found, -⟩ := find.ends sound
    obtain ⟨way, name, rest, split, ⟨slots, there⟩, ends⟩ :=
      Namespace.exists_of_obstacle? obstacle l.valid.tree.root
    rw [List.nil_append] at there ends
    rcases ends with ⟨rfl, size, file⟩ | ⟨rfl, gone⟩
    · obtain ⟨root, hroot⟩ := l.valid.root
      obtain ⟨t, dir, hway, table, -⟩ := toNamespace_eq_directory_iff.mp there
      obtain ⟨s, hs, plain⟩ := toNamespace_eq_file file
      have run : Runs n disk.store (volume.enter text) (.error (.error .notADirectory)) [] := by
        rw [enter, split]
        exact runs_enterAlong_append way l known find?_nil hroot hway table
          (runs_enterAlong_of_file rest l known hway table hs plain)
      obtain ⟨disk', entered, wrote⟩ := run.ends sound
      exact ⟨_, disk₁, _, disk', found, entered, .blocked wrote.untouched, nofun⟩
    · obtain ⟨entered, disk', ends, enters, leads⟩ :=
        m.enters_missing split there gone
      exact ⟨_, disk₁, entered, disk', found, ends, enters, leads⟩

theorem enter_ends_sample : ∃ volume disk, Run 40 sample volume disk ∧
    ∃ found disk₁ entered disk', volume.find "/a/x/y" disk = ending found disk₁ ∧
      volume.enter "/a/x/y" disk = ending entered disk' ∧
      volume.Enters 40 disk (Path.components "/a/x/y") found entered disk' ∧
      ∀ s, entered = .ok s → volume.Leads disk' "/a/x/y" s := by
  obtain ⟨volume, disk, run⟩ := exists_run_sample
  exact ⟨volume, disk, run, run.enter_ends (by decide) (by decide) "/a/x/y"⟩

end SectorFS
