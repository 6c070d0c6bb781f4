import Mathlib.Logic.Function.Basic
import SectorFS.Directory.Basic
import SectorFS.Proofs.Directory.Names
import SectorFS.Proofs.Word

/-!
# Directories as tables of entries

`Directory.held` is what the slots of a directory say, slot by slot. In a *tidy* directory, which is
all that adding and removing make out of an empty one, the slots in use hold entries under distinct
valid names. Looking up, adding and removing are then operations on `held`:

* `Tidy.lookup?_eq_some_iff` finds a name in the slot that holds it;
* `Tidy.add_ok` fills the lowest empty slot, `Tidy.remove_ok` empties the slot of the name, and both
  leave the directory tidy.
-/

namespace SectorFS

namespace Slot

theorem entry?_ofEntry {name : String} {sector : Nat} (hn : ValidName name)
    (hs : sector < Word.sectorLimit) (isDirectory : Bool) :
    Slot.entry? (ofEntry (NameField.encode name) sector isDirectory) =
      some ⟨name, sector, isDirectory⟩ := by
  have used : (ofEntry (NameField.encode name) sector isDirectory).isUsed = true := rfl
  unfold Slot.entry?
  rw [if_pos used]
  simp only [ofEntry, Word.sector?_ofSector hs, Option.map_some, NameField.toName_encode hn]
  cases isDirectory <;> rfl

theorem entry?_of_not_isUsed {slot : Slot} (h : slot.isUsed = false) : slot.entry? = none := by
  unfold Slot.entry?
  rw [h]
  rfl

end Slot

/-- What is looked for is first met at `i`. -/
theorem findIdx_eq_of_getElem? {α : Type} {xs : List α} {p : α → Bool} {i : Nat} {x : α}
    (there : xs[i]? = some x) (good : p x = true)
    (before : ∀ j y, j < i → xs[j]? = some y → p y = false) : xs.findIdx p = i := by
  obtain ⟨hi, rfl⟩ := List.getElem?_eq_some_iff.mp there
  rw [List.findIdx_eq hi]
  exact ⟨good, fun j hj => before j _ hj (List.getElem?_eq_getElem _)⟩

/-- Slots in a row, each empty or with an entry. -/
abbrev SlotMap := List (Option Entry)

namespace Directory

/-- The entry in a slot. -/
def held (dir : Directory) (i : Nat) : Option Entry := dir.slots[i]?.bind Slot.entry?

/-- Every slot in use was written for an entry with a valid name, and no name is used twice. -/
structure Tidy (dir : Directory) : Prop where
  written : ∀ slot ∈ dir.slots, slot.isUsed = true → ∃ name sector isDirectory, ValidName name ∧
    sector < Word.sectorLimit ∧ slot = .ofEntry (NameField.encode name) sector isDirectory
  distinct : ∀ i j e f, dir.held i = some e → dir.held j = some f → e.name = f.name → i = j

theorem held_lt {dir : Directory} {i : Nat} {e : Entry} (h : dir.held i = some e) :
    i < dir.capacity := by
  obtain ⟨slot, hslot, -⟩ := Option.bind_eq_some_iff.mp h
  exact (List.getElem?_eq_some_iff.mp hslot).1

theorem mem_entries {dir : Directory} {e : Entry} :
    e ∈ dir.entries ↔ ∃ i, dir.held i = some e := by
  rw [entries, List.mem_filterMap]
  constructor
  · rintro ⟨slot, hm, he⟩
    obtain ⟨i, hi⟩ := List.mem_iff_getElem?.mp hm
    exact ⟨i, by rw [held, hi]; exact he⟩
  · rintro ⟨i, hi⟩
    obtain ⟨slot, hslot, he⟩ := Option.bind_eq_some_iff.mp hi
    exact ⟨slot, List.mem_of_getElem? hslot, he⟩

theorem isEmpty_iff {dir : Directory} : dir.isEmpty = true ↔ ∀ i, dir.held i = none := by
  rw [isEmpty, List.isEmpty_iff, List.eq_nil_iff_forall_not_mem]
  constructor
  · intro h i
    cases he : dir.held i with
    | none => rfl
    | some e => exact absurd (mem_entries.mpr ⟨i, he⟩) (h e)
  · intro h e hm
    obtain ⟨i, hi⟩ := mem_entries.mp hm
    rw [h i] at hi
    cases hi

@[simp] theorem capacity_new (capacity : Nat) : (new capacity).capacity = capacity :=
  List.length_replicate

@[simp] theorem held_new (capacity i : Nat) : (new capacity).held i = none := by
  rw [held, new, List.getElem?_replicate]
  split <;> rfl

theorem tidy_new (capacity : Nat) : (new capacity).Tidy where
  written slot hm hu := by
    rw [List.eq_of_mem_replicate hm] at hu
    cases hu
  distinct i j e f he := by
    rw [held_new] at he
    cases he

/-! ## The slots in a row -/

/-- What the slots say. -/
def table (dir : Directory) : SlotMap := dir.slots.map Slot.entry?

theorem getElem?_table (dir : Directory) (i : Nat) :
    dir.table[i]? = if i < dir.capacity then some (dir.held i) else none := by
  rw [table, List.getElem?_map, held]
  by_cases hi : i < dir.capacity
  · have there : dir.slots[i]? = some (dir.slots.get ⟨i, hi⟩) := List.getElem?_eq_getElem hi
    rw [if_pos hi, there]
    rfl
  · have missing : dir.slots[i]? = none := List.getElem?_eq_none (Nat.not_lt.mp hi)
    rw [if_neg hi, missing]
    rfl

theorem getElem?_table_eq_some_iff {dir : Directory} {i : Nat} {slot : Option Entry} :
    dir.table[i]? = some slot ↔ i < dir.capacity ∧ dir.held i = slot := by
  rw [getElem?_table, Option.ite_none_right_eq_some, Option.some.injEq]

theorem getElem?_table_eq_entry_iff {dir : Directory} {i : Nat} {e : Entry} :
    dir.table[i]? = some (some e) ↔ dir.held i = some e :=
  getElem?_table_eq_some_iff.trans ⟨And.right, fun he => ⟨held_lt he, he⟩⟩

theorem none_mem_table {dir : Directory} :
    none ∈ dir.table ↔ ∃ i, i < dir.capacity ∧ dir.held i = none := by
  rw [List.mem_iff_getElem?]
  exact exists_congr fun i => getElem?_table_eq_some_iff

theorem table_new (capacity : Nat) : (new capacity).table = .replicate capacity none := by
  rw [table, new, List.map_replicate]
  rfl

/-- Changing one slot changes one slot of the map. -/
theorem table_update {old dir : Directory} {i : Nat} {slot : Option Entry}
    (capacity : dir.capacity = old.capacity) (held : dir.held = Function.update old.held i slot) :
    dir.table = old.table.set i slot := by
  have length : old.table.length = old.capacity := List.length_map _
  apply List.ext_getElem?
  intro j
  rw [List.getElem?_set, getElem?_table, getElem?_table, length, capacity, held]
  by_cases hj : i = j
  · subst hj
    rw [Function.update_self, if_pos rfl]
  · rw [Function.update_of_ne (Ne.symm hj), if_neg hj]

/-! ## Replacing one slot -/

theorem held_set {dir : Directory} {i : Nat} (hi : i < dir.capacity) (slot : Slot) :
    (⟨dir.slots.set i slot⟩ : Directory).held = Function.update dir.held i slot.entry? := by
  funext j
  by_cases hj : j = i
  · subst hj
    rw [held, Function.update_self, List.getElem?_set_self hi]
    rfl
  · rw [held, Function.update_of_ne hj, List.getElem?_set_ne (Ne.symm hj)]
    rfl

/-- A slot can be replaced by an unused one, or by one for a new name. -/
theorem Tidy.set {dir : Directory} (h : dir.Tidy) {i : Nat} (hi : i < dir.capacity) {slot : Slot}
    (written : slot.isUsed = true → ∃ name sector isDirectory, ValidName name ∧
      sector < Word.sectorLimit ∧ slot = .ofEntry (NameField.encode name) sector isDirectory)
    (fresh : ∀ e ∈ slot.entry?, ∀ j f, dir.held j = some f → f.name ≠ e.name) :
    (⟨dir.slots.set i slot⟩ : Directory).Tidy where
  written s hm hu := by
    rcases List.mem_or_eq_of_mem_set hm with hm | rfl
    · exact h.written s hm hu
    · exact written hu
  distinct j k e f he hf same := by
    rw [held_set hi] at he hf
    by_cases hj : j = i <;> by_cases hk : k = i
    · simp [hj, hk]
    · rw [hj, Function.update_self] at he
      rw [Function.update_of_ne hk] at hf
      exact absurd same.symm (fresh e he k f hf)
    · rw [Function.update_of_ne hj] at he
      rw [hk, Function.update_self] at hf
      exact absurd same (fresh f hf j e he)
    · rw [Function.update_of_ne hj] at he
      rw [Function.update_of_ne hk] at hf
      exact h.distinct j k e f he hf same

namespace Tidy

variable {dir : Directory} (h : dir.Tidy)
include h

/-- A slot in use says what it was written for. -/
theorem exists_held {i : Nat} {slot : Slot} (hs : dir.slots[i]? = some slot)
    (hu : slot.isUsed = true) :
    ∃ e, dir.held i = some e ∧ ValidName e.name ∧ e.sector < Word.sectorLimit ∧
      slot = .ofEntry (NameField.encode e.name) e.sector e.isDirectory := by
  obtain ⟨name, sector, isDirectory, hn, hlt, rfl⟩ := h.written slot (List.mem_of_getElem? hs) hu
  refine ⟨⟨name, sector, isDirectory⟩, ?_, hn, hlt, rfl⟩
  rw [held, hs]
  exact Slot.entry?_ofEntry hn hlt isDirectory

theorem exists_slot {i : Nat} {e : Entry} (he : dir.held i = some e) :
    dir.slots[i]? = some (.ofEntry (NameField.encode e.name) e.sector e.isDirectory) ∧
      ValidName e.name ∧ e.sector < Word.sectorLimit := by
  obtain ⟨slot, hs, hentry⟩ := Option.bind_eq_some_iff.mp he
  have hu : slot.isUsed = true := by
    by_contra hu
    rw [Slot.entry?_of_not_isUsed (Bool.not_eq_true _ ▸ hu)] at hentry
    cases hentry
  obtain ⟨f, hf, hn, hlt, rfl⟩ := h.exists_held hs hu
  rw [he, Option.some.injEq] at hf
  subst hf
  exact ⟨hs, hn, hlt⟩

theorem validName {i : Nat} {e : Entry} (he : dir.held i = some e) : ValidName e.name :=
  (h.exists_slot he).2.1

/-- A slot is empty exactly when it is not in use. -/
theorem held_eq_none_iff {i : Nat} {slot : Slot} (hs : dir.slots[i]? = some slot) :
    dir.held i = none ↔ slot.isUsed = false := by
  constructor
  · intro hnone
    by_contra hu
    obtain ⟨e, he, -⟩ := h.exists_held hs (by simpa using hu)
    rw [hnone] at he
    cases he
  · intro hu
    rw [held, hs]
    exact Slot.entry?_of_not_isUsed hu

theorem none_mem_table_iff : none ∈ dir.table ↔ ∃ slot ∈ dir.slots, slot.isUsed = false := by
  rw [none_mem_table]
  constructor
  · rintro ⟨i, hi, empty⟩
    have there : dir.slots[i]? = some (dir.slots.get ⟨i, hi⟩) := List.getElem?_eq_getElem hi
    exact ⟨_, List.get_mem .., (h.held_eq_none_iff there).mp empty⟩
  · rintro ⟨slot, hm, unused⟩
    obtain ⟨i, hi⟩ := List.mem_iff_getElem?.mp hm
    exact ⟨i, (List.getElem?_eq_some_iff.mp hi).1, (h.held_eq_none_iff hi).mpr unused⟩

theorem holds_iff {i : Nat} {slot : Slot} (hs : dir.slots[i]? = some slot) {name : String}
    (hn : ValidName name) :
    slot.holds (NameField.encode name) = true ↔ ∃ e, dir.held i = some e ∧ e.name = name := by
  rw [Slot.holds, Bool.and_eq_true, beq_iff_eq]
  constructor
  · rintro ⟨hu, hname⟩
    obtain ⟨e, he, hv, -, rfl⟩ := h.exists_held hs hu
    exact ⟨e, he, (NameField.encode_inj hv hn).mp hname⟩
  · rintro ⟨e, he, rfl⟩
    obtain ⟨hs', -, -⟩ := h.exists_slot he
    rw [hs, Option.some.injEq] at hs'
    subst hs'
    exact ⟨rfl, rfl⟩

/-- A name is found in the slot that holds it. -/
theorem index?_eq_some_iff {name : String} {i : Nat} :
    dir.index? name = some i ↔ ∃ e, dir.held i = some e ∧ e.name = name := by
  unfold index?
  by_cases hn : ValidName name
  · rw [NameField.ofName_of_valid hn]
    simp only [List.findIdx?_eq_some_iff_getElem]
    constructor
    · rintro ⟨hi, hholds, -⟩
      exact (h.holds_iff (List.getElem?_eq_getElem hi) hn).mp hholds
    · rintro ⟨e, he, hname⟩
      have hi : i < dir.slots.length := held_lt he
      refine ⟨hi, (h.holds_iff (List.getElem?_eq_getElem hi) hn).mpr ⟨e, he, hname⟩, ?_⟩
      intro j hj hholds
      obtain ⟨f, hf, hname'⟩ :=
        (h.holds_iff (List.getElem?_eq_getElem (Nat.lt_trans hj hi)) hn).mp hholds
      have := h.distinct j i f e hf he (hname'.trans hname.symm)
      omega
  · have refused : ∃ e, NameField.ofName name = .error e := by
      cases ho : NameField.ofName name with
      | error e => exact ⟨e, rfl⟩
      | ok field => exact absurd (NameField.ofName_eq_ok_iff.mp ho).1 hn
    obtain ⟨e, ho⟩ := refused
    rw [ho]
    constructor
    · intro hi
      cases hi
    · rintro ⟨f, hf, rfl⟩
      exact absurd (h.validName hf) hn

theorem lookup?_eq_some_iff {name : String} {e : Entry} :
    dir.lookup? name = some e ↔ ∃ i, dir.held i = some e ∧ e.name = name := by
  have : dir.lookup? name = some e ↔ ∃ i, dir.index? name = some i ∧ dir.held i = some e := by
    simp [lookup?, held, Option.bind_eq_some_iff]
  rw [this]
  constructor
  · rintro ⟨i, hi, he⟩
    obtain ⟨f, hf, hname⟩ := h.index?_eq_some_iff.mp hi
    rw [he, Option.some.injEq] at hf
    exact ⟨i, he, hf ▸ hname⟩
  · rintro ⟨i, he, hname⟩
    exact ⟨i, h.index?_eq_some_iff.mpr ⟨e, he, hname⟩, he⟩

theorem lookup?_eq_none_iff {name : String} :
    dir.lookup? name = none ↔ ∀ i e, dir.held i = some e → e.name ≠ name := by
  rw [Option.eq_none_iff_forall_not_mem]
  constructor
  · intro hnone i e he hname
    exact hnone e (h.lookup?_eq_some_iff.mpr ⟨i, he, hname⟩)
  · intro hnone e he
    obtain ⟨i, hi, hname⟩ := h.lookup?_eq_some_iff.mp he
    exact hnone i e hi hname

/-- Adding fills the lowest empty slot. -/
theorem add_ok {dir' : Directory} {name : String} {sector : Nat} {isDirectory : Bool}
    (hadd : dir.add name sector isDirectory = .ok dir') (hsector : sector < Word.sectorLimit) :
    ∃ i, i < dir.capacity ∧ dir.held i = none ∧ (∀ j, j < i → dir.held j ≠ none) ∧
      ValidName name ∧ (∀ j e, dir.held j = some e → e.name ≠ name) ∧
      dir'.capacity = dir.capacity ∧ dir'.Tidy ∧
      dir'.held = Function.update dir.held i (some ⟨name, sector, isDirectory⟩) := by
  rw [add] at hadd
  cases ho : NameField.ofName name with
  | error e =>
    rw [ho] at hadd
    cases hadd
  | ok field =>
    obtain ⟨hn, rfl⟩ := NameField.ofName_eq_ok_iff.mp ho
    rw [ho] at hadd
    change (if _ then _ else _) = _ at hadd
    split at hadd
    · cases hadd
    · rename_i absent
      cases hf : dir.slots.findIdx? (!·.isUsed) with
      | none =>
        rw [hf] at hadd
        cases hadd
      | some i =>
        rw [hf] at hadd
        obtain rfl := (Except.ok.inj hadd).symm
        obtain ⟨hi, hunused, least⟩ := List.findIdx?_eq_some_iff_getElem.mp hf
        have empty : dir.held i = none :=
          (h.held_eq_none_iff (List.getElem?_eq_getElem hi)).mpr (by simpa using hunused)
        have fresh : ∀ j e, dir.held j = some e → e.name ≠ name := by
          intro j e he hname
          apply absent
          rw [h.index?_eq_some_iff.mpr ⟨e, he, hname⟩]
          rfl
        refine ⟨i, hi, empty, ?_, hn, fresh, by simp [capacity], ?_, ?_⟩
        · intro j hj hnone
          have hj' := Nat.lt_trans hj hi
          have := least j hj
          rw [(h.held_eq_none_iff (List.getElem?_eq_getElem hj')).mp hnone] at this
          exact this rfl
        · apply h.set hi
          · intro _
            exact ⟨name, sector, isDirectory, hn, hsector, rfl⟩
          · intro e he j f hf
            rw [Slot.entry?_ofEntry hn hsector, Option.mem_some_iff] at he
            subst he
            exact fresh j f hf
        · simp [held_set hi, Slot.entry?_ofEntry hn hsector]

/-- Removing a name that is there empties its slot and keeps the others. -/
theorem remove_ok {name : String} {i : Nat} {e : Entry} (he : dir.held i = some e)
    (hname : e.name = name) :
    ∃ dir', dir.remove name = .ok dir' ∧ dir'.capacity = dir.capacity ∧ dir'.Tidy ∧
      dir'.held = Function.update dir.held i none := by
  have hi : i < dir.slots.length := held_lt he
  have same : dir.slots.modify i Slot.clear = dir.slots.set i (dir.slots[i]).clear := by
    apply List.ext_getElem?
    intro j
    rw [List.getElem?_modify, List.getElem?_set]
    by_cases hj : i = j
    · subst hj
      simp [hi]
    · simp [hj]
  have none : (dir.slots[i]).clear.entry? = none := Slot.entry?_of_not_isUsed rfl
  refine ⟨⟨dir.slots.set i (dir.slots[i]).clear⟩, ?_, by simp [capacity], ?_, ?_⟩
  · rw [remove, h.index?_eq_some_iff.mpr ⟨e, he, hname⟩]
    simp only [same]
  · apply h.set hi
    · intro hu
      cases hu
    · intro f hf
      rw [none] at hf
      cases hf
  · simp [held_set hi, none]

end Tidy

theorem lookup?_new (capacity : Nat) (name : String) : (new capacity).lookup? name = none := by
  rw [(tidy_new capacity).lookup?_eq_none_iff]
  intro i e he
  rw [held_new] at he
  cases he

end Directory

end SectorFS
