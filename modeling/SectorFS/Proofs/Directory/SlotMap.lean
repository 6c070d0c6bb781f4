import Mathlib.Data.List.Basic
import SectorFS.Proofs.Directory.Table

/-!
# A directory is a map of slots

Each slot is empty or holds an entry, and names find their slots. `SlotMap.act` says what adding and
removing do to such a map, errors included. The bytes of a directory do the same in place, also over
what removed entries left behind: `Directory.transcript_eq` goes from one step to all sequences of
them, and `Directory.transcript_as_slotMap` adds what a directory then answers.
-/

namespace SectorFS

/-- Adding a name to a directory, or removing one. -/
inductive SlotMap.Edit where
  | add (name : String) (sector : Nat) (isDirectory : Bool)
  | remove (name : String)

/-- The sector can be stored. -/
def SlotMap.Edit.Fits : Edit → Prop
  | add _ sector _ => sector < Word.sectorLimit
  | remove _ => True

namespace SlotMap

def names (table : SlotMap) : List String := table.filterMap (Option.map Entry.name)

/-- Why a name cannot be added: the first reason that there is. -/
def refusal? (table : SlotMap) (name : String) : Option Error :=
  if name = "" ∨ '/' ∈ name.toList ∨ '\x00' ∈ name.toList then
    some (.invalidArgument (.fileName name))
  else if 12 < name.utf8ByteSize then some .nameTooLong
  else if name ∈ table.names then some .alreadyExists
  else if none ∉ table then some .directoryFull
  else none

/-- Adding fills the lowest empty slot, removing empties the slot of the name. -/
def act (table : SlotMap) : Edit → Except Error Unit × SlotMap
  | .add name sector isDirectory =>
    match table.refusal? name with
    | some e => (.error e, table)
    | none => (.ok (), table.set (table.idxOf none) (some ⟨name, sector, isDirectory⟩))
  | .remove name =>
    if name ∈ table.names then
      (.ok (), table.set (table.findIdx fun slot => slot.map Entry.name = some name) none)
    else (.error .notFound, table)

/-- What the edits end with, one after the other, and what is left by them. -/
def transcript {State : Type} (act : State → Edit → Except Error Unit × State) :
    State → List Edit → List (Except Error Unit) × State
  | state, [] => ([], state)
  | state, edit :: edits =>
    let (result, state) := act state edit
    let (results, state) := transcript act state edits
    (result :: results, state)

theorem length_act (table : SlotMap) (edit : Edit) : (table.act edit).2.length = table.length := by
  cases edit with
  | add name sector isDirectory =>
    rw [act]
    cases table.refusal? name with
    | some e => rfl
    | none => exact List.length_set
  | remove name =>
    rw [act]
    split
    · exact List.length_set
    · rfl

theorem length_transcript (edits : List Edit) (table : SlotMap) :
    (transcript act table edits).2.length = table.length := by
  induction edits generalizing table with
  | nil => rfl
  | cons edit edits ih => exact (ih _).trans (length_act table edit)

theorem mem_names {table : SlotMap} {name : String} :
    name ∈ table.names ↔ ∃ (i : Nat) (e : Entry), table[i]? = some (some e) ∧ e.name = name := by
  rw [names, List.mem_filterMap]
  constructor
  · rintro ⟨slot, hm, hs⟩
    obtain ⟨e, rfl, rfl⟩ := Option.map_eq_some_iff.mp hs
    obtain ⟨i, hi⟩ := List.mem_iff_getElem?.mp hm
    exact ⟨i, e, hi, rfl⟩
  · rintro ⟨i, e, hi, rfl⟩
    exact ⟨some e, List.mem_of_getElem? hi, rfl⟩

end SlotMap

namespace Directory

open SlotMap (Edit transcript)

/-! ## In place -/

/-- Adds a name to the directory at hand. -/
def addInPlace (name : String) (sector : Nat) (isDirectory : Bool) :
    EStateM Error Directory Unit := do
  let field ← ofExcept (NameField.ofName name)
  if ((← get).index? name).isSome then throw .alreadyExists
  match (← get).slots.findIdx? (!·.isUsed) with
  | some i => modify fun dir => ⟨dir.slots.set i (.ofEntry field sector isDirectory)⟩
  | none => throw .directoryFull

def removeInPlace (name : String) : EStateM Error Directory Unit := do
  match (← get).index? name with
  | some i => modify fun dir => ⟨dir.slots.modify i Slot.clear⟩
  | none => throw .notFound

def inPlace : Edit → EStateM Error Directory Unit
  | .add name sector isDirectory => addInPlace name sector isDirectory
  | .remove name => removeInPlace name

def act (dir : Directory) (edit : Edit) : Except Error Unit × Directory :=
  match (inPlace edit).run dir with
  | .ok () dir => (.ok (), dir)
  | .error e dir => (.error e, dir)

/-- An edit that makes a new directory. -/
def apply (dir : Directory) : Edit → Except Error Directory
  | .add name sector isDirectory => dir.add name sector isDirectory
  | .remove name => dir.remove name

/-- The outcome of a change that leaves the directory alone when it fails. -/
def settle (dir : Directory) : Except Error Directory → EStateM.Result Error Directory Unit
  | .ok dir' => .ok () dir'
  | .error e => .error e dir

theorem get_run (dir : Directory) : (get : EStateM Error Directory _) dir = .ok dir dir := rfl

theorem addInPlace_eq (dir : Directory) (name : String) (sector : Nat) (isDirectory : Bool) :
    (addInPlace name sector isDirectory).run dir =
      dir.settle (dir.add name sector isDirectory) := by
  rw [addInPlace, add]
  cases NameField.ofName name with
  | error e => rfl
  | ok field =>
    simp only [EStateM.run, bind, EStateM.bind, Except.bind, ofExcept, pure, EStateM.pure, get_run]
    by_cases found : (dir.index? name).isSome = true
    · rw [if_pos found, if_pos found]
      rfl
    · rw [if_neg found, if_neg found]
      cases room : dir.slots.findIdx? (!·.isUsed) with
      | none =>
        simp only [EStateM.bind, get_run, room]
        rfl
      | some i =>
        simp only [EStateM.bind, get_run, room]
        rfl

theorem removeInPlace_eq (dir : Directory) (name : String) :
    (removeInPlace name).run dir = dir.settle (dir.remove name) := by
  rw [removeInPlace, remove]
  simp only [EStateM.run, bind, EStateM.bind, get_run]
  cases dir.index? name with
  | none => rfl
  | some i => rfl

/-- In place or not, an edit comes to the same. -/
theorem inPlace_eq (dir : Directory) (edit : Edit) :
    (inPlace edit).run dir = dir.settle (dir.apply edit) := by
  cases edit with
  | add name sector isDirectory => exact addInPlace_eq dir name sector isDirectory
  | remove name => exact removeInPlace_eq dir name

theorem act_of_ok {dir dir' : Directory} {edit : Edit} (run : dir.apply edit = .ok dir') :
    dir.act edit = (.ok (), dir') := by
  rw [act, inPlace_eq, run]
  rfl

theorem act_of_error {dir : Directory} {e : Error} {edit : Edit} (run : dir.apply edit = .error e) :
    dir.act edit = (.error e, dir) := by
  rw [act, inPlace_eq, run]
  rfl

/-! ## Slots -/

/-- The header sector of a name. -/
def find? (dir : Directory) (name : String) : Option Nat := (dir.lookup? name).map Entry.sector

theorem mem_names_table {dir : Directory} {name : String} :
    name ∈ dir.table.names ↔ ∃ i e, dir.held i = some e ∧ e.name = name := by
  simp only [SlotMap.mem_names, getElem?_table_eq_entry_iff]

namespace Tidy

variable {dir : Directory} (h : dir.Tidy)
include h

theorem nodup_names : dir.table.names.Nodup := by
  rw [SlotMap.names, List.Nodup, List.pairwise_filterMap, List.pairwise_iff_getElem]
  intro i j hi hj lt name hname name' hname' same
  obtain ⟨e, he, rfl⟩ := Option.map_eq_some_iff.mp hname
  obtain ⟨f, hf, rfl⟩ := Option.map_eq_some_iff.mp hname'
  have held := getElem?_table_eq_entry_iff.mp (he ▸ List.getElem?_eq_getElem hi)
  have held' := getElem?_table_eq_entry_iff.mp (hf ▸ List.getElem?_eq_getElem hj)
  exact Nat.ne_of_lt lt (h.distinct i j e f held held' same)

theorem isSome_index?_iff {name : String} :
    (dir.index? name).isSome = true ↔ name ∈ dir.table.names := by
  rw [mem_names_table, Option.isSome_iff_exists]
  exact exists_congr fun i => h.index?_eq_some_iff

/-- Adding is refused for the first reason that there is, and else it is done. -/
theorem add_eq (name : String) (sector : Nat) (isDirectory : Bool) :
    dir.add name sector isDirectory =
      match dir.table.refusal? name with
      | some e => .error e
      | none => .ok ⟨dir.slots.set (dir.slots.findIdx (!·.isUsed))
          (.ofEntry (NameField.encode name) sector isDirectory)⟩ := by
  have room : dir.slots.findIdx? (!·.isUsed) =
      if none ∉ dir.table then none else some (dir.slots.findIdx (!·.isUsed)) := by
    by_cases empty : none ∈ dir.table
    · rw [if_neg (not_not.mpr empty), List.findIdx?_eq_some_iff_findIdx_eq]
      obtain ⟨slot, hm, unused⟩ := h.none_mem_table_iff.mp empty
      exact ⟨List.findIdx_lt_length_of_exists ⟨slot, hm, by rw [unused]; rfl⟩, rfl⟩
    · rw [if_pos empty, List.findIdx?_eq_none_iff]
      intro slot hm
      rw [Bool.not_eq_false']
      by_contra unused
      exact empty (h.none_mem_table_iff.mpr ⟨slot, hm, by simpa using unused⟩)
  simp only [add, NameField.ofName_checks, SlotMap.refusal?, Text.length_encodeUtf8,
    String.toList_eq_nil_iff, nameLimit, h.isSome_index?_iff, room]
  split_ifs <;> rfl

theorem add_refused {name : String} {e : Error} (refused : dir.table.refusal? name = some e)
    (sector : Nat) (isDirectory : Bool) : dir.add name sector isDirectory = .error e := by
  rw [h.add_eq, refused]

/-- A name that is not refused goes into the lowest empty slot. -/
theorem add_done {name : String} {sector : Nat} (free : dir.table.refusal? name = none)
    (fits : sector < Word.sectorLimit) (isDirectory : Bool) :
    ∃ i dir', dir.add name sector isDirectory = .ok dir' ∧ dir'.Tidy ∧
      dir.table[i]? = some none ∧ (∀ j, j < i → dir.table[j]? ≠ some none) ∧
      dir'.table = dir.table.set i (some ⟨name, sector, isDirectory⟩) := by
  have run := h.add_eq name sector isDirectory
  rw [free] at run
  obtain ⟨i, hi, empty, lowest, -, -, size, tidy, held⟩ := h.add_ok run fits
  refine ⟨i, _, run, tidy, ?_, fun j hj => ?_, table_update size held⟩
  · exact getElem?_table_eq_some_iff.mpr ⟨hi, empty⟩
  · exact fun same => lowest j hj (getElem?_table_eq_some_iff.mp same).2

theorem remove_missing {name : String} (missing : name ∉ dir.table.names) :
    dir.remove name = .error .notFound := by
  have absent : dir.index? name = none := by
    rw [← Option.not_isSome_iff_eq_none, h.isSome_index?_iff]
    exact missing
  rw [remove, absent]

theorem remove_held {i : Nat} {e : Entry} (there : dir.table[i]? = some (some e)) :
    ∃ dir', dir.remove e.name = .ok dir' ∧ dir'.Tidy ∧ dir'.table = dir.table.set i none := by
  obtain ⟨dir', run, size, tidy, held⟩ :=
    h.remove_ok (getElem?_table_eq_entry_iff.mp there) rfl
  exact ⟨dir', run, tidy, table_update size held⟩

/-- A name has one slot. -/
theorem index_unique {i j : Nat} {e f : Entry} (he : dir.table[i]? = some (some e))
    (hf : dir.table[j]? = some (some f)) (same : e.name = f.name) : i = j :=
  h.distinct i j e f (getElem?_table_eq_entry_iff.mp he) (getElem?_table_eq_entry_iff.mp hf) same

/-- One change of the directory is the change of the map. -/
theorem act_eq {edit : Edit} (fits : edit.Fits) :
    (dir.act edit).1 = (dir.table.act edit).1 ∧ (dir.act edit).2.Tidy ∧
      (dir.act edit).2.table = (dir.table.act edit).2 := by
  cases edit with
  | add name sector isDirectory =>
    cases refused : dir.table.refusal? name with
    | some e =>
      have run : dir.apply (.add name sector isDirectory) = .error e := h.add_refused refused ..
      rw [act_of_error run, SlotMap.act, refused]
      exact ⟨rfl, h, rfl⟩
    | none =>
      obtain ⟨i, dir', run, tidy, empty, lowest, after⟩ := h.add_done refused fits isDirectory
      have run : dir.apply (.add name sector isDirectory) = .ok dir' := run
      have first : dir.table.idxOf none = i := findIdx_eq_of_getElem? empty (beq_self_eq_true _)
        fun j slot hj hs => beq_eq_false_iff_ne.mpr fun eq => lowest j hj (eq ▸ hs)
      rw [act_of_ok run, SlotMap.act, refused]
      exact ⟨rfl, tidy, after.trans (by rw [first])⟩
  | remove name =>
    by_cases held : name ∈ dir.table.names
    · obtain ⟨i, e, there, rfl⟩ := SlotMap.mem_names.mp held
      obtain ⟨dir', run, tidy, after⟩ := h.remove_held there
      have run : dir.apply (.remove e.name) = .ok dir' := run
      have place : (dir.table.findIdx fun slot => slot.map Entry.name = some e.name) = i := by
        apply findIdx_eq_of_getElem? there (decide_eq_true rfl)
        intro j slot hj hs
        rw [decide_eq_false_iff_not]
        intro same
        obtain ⟨f, rfl, shared⟩ := Option.map_eq_some_iff.mp same
        have := h.index_unique hs there shared
        omega
      rw [act_of_ok run, SlotMap.act, if_pos held, place]
      exact ⟨rfl, tidy, after⟩
    · have run : dir.apply (.remove name) = .error .notFound := h.remove_missing held
      rw [act_of_error run, SlotMap.act, if_neg held]
      exact ⟨rfl, h, rfl⟩

end Tidy

/-! ## All edits -/

/-- Edits of a directory end as those of the map do, and leave what these leave. -/
theorem Tidy.transcript_eq {dir : Directory} (h : dir.Tidy) {edits : List Edit}
    (fits : ∀ edit ∈ edits, edit.Fits) :
    (transcript act dir edits).1 = (transcript SlotMap.act dir.table edits).1 ∧
      (transcript act dir edits).2.Tidy ∧
      (transcript act dir edits).2.table = (transcript SlotMap.act dir.table edits).2 := by
  induction edits generalizing dir with
  | nil => exact ⟨rfl, h, rfl⟩
  | cons edit edits ih =>
    obtain ⟨result, tidy, after⟩ := h.act_eq (fits edit List.mem_cons_self)
    obtain ⟨results, last, table⟩ := ih tidy fun e he => fits e (List.mem_cons_of_mem _ he)
    rw [after] at results table
    simp only [transcript, result, results]
    exact ⟨trivial, last, table⟩

/-- The directory is this map: what it answers, how names come into it, and how they leave it. -/
structure Presents (dir : Directory) (table : SlotMap) : Prop where
  table_eq : dir.table = table
  nodup_names : table.names.Nodup
  add_refused : ∀ name sector isDirectory e, table.refusal? name = some e →
    dir.add name sector isDirectory = .error e ∧
      (addInPlace name sector isDirectory).run dir = .error e dir
  add_done : ∀ name sector isDirectory, sector < Word.sectorLimit → table.refusal? name = none →
    ∃ i dir', table[i]? = some none ∧ (∀ j, j < i → table[j]? ≠ some none) ∧
      dir.add name sector isDirectory = .ok dir' ∧
      (addInPlace name sector isDirectory).run dir = .ok () dir' ∧
      dir'.table = table.set i (some ⟨name, sector, isDirectory⟩)
  remove_missing : ∀ name, name ∉ table.names →
    dir.remove name = .error .notFound ∧ (removeInPlace name).run dir = .error .notFound dir
  remove_held : ∀ (i : Nat) (e : Entry), table[i]? = some (some e) →
    ∃ dir', dir.remove e.name = .ok dir' ∧ (removeInPlace e.name).run dir = .ok () dir' ∧
      dir'.table = table.set i none
  lookup_held : ∀ (i : Nat) (e : Entry), table[i]? = some (some e) →
    dir.lookup? e.name = some e ∧ dir.find? e.name = some e.sector
  lookup_missing : ∀ name, name ∉ table.names → dir.lookup? name = none ∧ dir.find? name = none
  entries_eq : dir.entries = table.filterMap id
  names_eq : dir.names = table.names
  isEmpty_iff : dir.isEmpty = true ↔ ∀ slot ∈ table, slot = none

theorem Tidy.presents {dir : Directory} (h : dir.Tidy) : dir.Presents dir.table where
  table_eq := rfl
  nodup_names := h.nodup_names
  add_refused name sector isDirectory e refused := by
    have run := h.add_refused refused sector isDirectory
    exact ⟨run, by rw [addInPlace_eq, run]; rfl⟩
  add_done name sector isDirectory fits free := by
    obtain ⟨i, dir', run, -, empty, lowest, after⟩ := h.add_done free fits isDirectory
    exact ⟨i, dir', empty, lowest, run, by rw [addInPlace_eq, run]; rfl, after⟩
  remove_missing name missing := by
    have run := h.remove_missing missing
    exact ⟨run, by rw [removeInPlace_eq, run]; rfl⟩
  remove_held i e there := by
    obtain ⟨dir', run, -, after⟩ := h.remove_held there
    exact ⟨dir', run, by rw [removeInPlace_eq, run]; rfl, after⟩
  lookup_held i e there := by
    have found := h.lookup?_eq_some_iff.mpr ⟨i, getElem?_table_eq_entry_iff.mp there, rfl⟩
    exact ⟨found, by rw [find?, found]; rfl⟩
  lookup_missing name missing := by
    have absent : dir.lookup? name = none := by
      rw [h.lookup?_eq_none_iff]
      exact fun i e he same => missing (mem_names_table.mpr ⟨i, e, he, same⟩)
    exact ⟨absent, by rw [find?, absent]; rfl⟩
  entries_eq := by
    rw [entries, table, List.filterMap_map]
    rfl
  names_eq := by
    rw [names, entries, SlotMap.names, table, List.filterMap_map, List.map_filterMap]
    rfl
  isEmpty_iff := by
    rw [isEmpty, List.isEmpty_iff, entries, List.filterMap_eq_nil_iff, table, List.forall_mem_map]

/-- A new directory under any edits is a map of slots. -/
theorem transcript_as_slotMap (capacity : Nat) {edits : List Edit}
    (fits : ∀ edit ∈ edits, edit.Fits) :
    let dir := transcript act (new capacity) edits
    let table := transcript SlotMap.act (.replicate capacity none) edits
    dir.1 = table.1 ∧ table.2.length = capacity ∧ dir.2.Presents table.2 := by
  intro dir table
  obtain ⟨results, tidy, after⟩ := (tidy_new capacity).transcript_eq fits
  rw [table_new] at results after
  have presents := tidy.presents
  rw [after] at presents
  have length := SlotMap.length_transcript edits (.replicate capacity none)
  rw [List.length_replicate] at length
  exact ⟨results, length, presents⟩

/-- A name of twelve bytes is added and removed again, its slot goes to another name, and then no
slot is left. -/
theorem transcript_as_slotMap_reuse :
    let dir := transcript act (new 2) [.add "ключик" 7 false, .add "a" 8 true, .remove "ключик",
      .add "ключ" 9 false, .add "c" 3 false]
    dir.1 = [.ok (), .ok (), .ok (), .ok (), .error .directoryFull] ∧
      dir.2.entries = [⟨"ключ", 9, false⟩, ⟨"a", 8, true⟩] ∧
      dir.2.find? "ключ" = some 9 ∧ dir.2.find? "ключик" = none := by
  intro dir
  have fits : ∀ edit ∈ [Edit.add "ключик" 7 false, .add "a" 8 true, .remove "ключик",
      .add "ключ" 9 false, .add "c" 3 false], edit.Fits := by
    simp [SlotMap.Edit.Fits, Word.sectorLimit]
  obtain ⟨results, -, presents⟩ := transcript_as_slotMap 2 fits
  have left : transcript SlotMap.act (.replicate 2 none) [Edit.add "ключик" 7 false,
      .add "a" 8 true, .remove "ключик", .add "ключ" 9 false, .add "c" 3 false] =
      ([.ok (), .ok (), .ok (), .ok (), .error .directoryFull],
        [some ⟨"ключ", 9, false⟩, some ⟨"a", 8, true⟩]) := by
    decide +kernel
  rw [left] at results presents
  exact ⟨results, presents.entries_eq, (presents.lookup_held 0 _ rfl).2,
    (presents.lookup_missing "ключик" (by decide +kernel)).2⟩

end Directory

end SectorFS
