import Mathlib.Logic.Function.Basic
import SectorFS.Proofs.Volume.Catalog

/-!
# Entering a new node

An `Insertion` enters a node in an empty slot, with sectors that had no owner. It keeps the catalog
valid (`Insertion.valid`), and the only way it adds is the one to the new node
(`Insertion.find?_result_iff`).
-/

namespace SectorFS.Catalog

/-- The catalog with another table in the directory at `p`, and another node, or none, at `s`. -/
def relink (c : Catalog) (p : Nat) (dir : Directory) (s : Nat) (node? : Option Node) : Catalog :=
  Function.update (Function.update c p ((c p).map fun node => { node with table := some dir })) s
    node?

section Relink

variable {c : Catalog} {p s t : Nat} {old dir : Directory} {node? : Option Node}

theorem relink_self : c.relink p dir s node? s = node? := Function.update_self ..

theorem relink_parent (h : p ≠ s) :
    c.relink p dir s node? p = (c p).map fun node => { node with table := some dir } := by
  simp [relink, Function.update_of_ne h, Function.update_self]

theorem relink_of_ne (hs : t ≠ s) (hp : t ≠ p) : c.relink p dir s node? t = c t := by
  simp [relink, Function.update_of_ne hs, Function.update_of_ne hp]

/-- Nodes keep their extents, the one at `s` aside. -/
theorem exists_relink (p : Nat) (dir : Directory) (node? : Option Node) {node : Node} (hs : t ≠ s)
    (h : c t = some node) :
    ∃ node', c.relink p dir s node? t = some node' ∧ node'.extent = node.extent := by
  by_cases hp : t = p
  · subst hp
    exact ⟨{ node with table := some dir }, by rw [relink_parent hs, h]; rfl, rfl⟩
  · exact ⟨node, by rw [relink_of_ne hs hp, h], rfl⟩

theorem table?_relink_parent (h : p ≠ s) (there : c.table? p = some old) :
    (c.relink p dir s node?).table? p = some dir := by
  obtain ⟨extent, hp⟩ := table?_eq_some_iff.mp there
  rw [table?, relink_parent h, hp]
  rfl

theorem table?_relink_of_ne (hs : t ≠ s) (hp : t ≠ p) :
    (c.relink p dir s node?).table? t = c.table? t := by
  simp [table?, relink_of_ne hs hp]

end Relink

/-- A new node, entered in the empty slot of a directory. -/
structure Insertion (n : Nat) (c : Catalog) where
  parent : Nat
  old : Directory
  new : Directory
  slot : Nat
  entry : Entry
  node : Node
  table : c.table? parent = some old
  slot_lt : slot < old.capacity
  empty : old.held slot = none
  lowest : ∀ j, j < slot → old.held j ≠ none
  valid_name : ValidName entry.name
  fresh_name : ∀ j e, old.held j = some e → e.name ≠ entry.name
  tidy : new.Tidy
  capacity : new.capacity = old.capacity
  held : new.held = Function.update old.held slot (some entry)
  kind : node.table.isSome = entry.isDirectory
  bare : ∀ dir ∈ node.table, dir = Directory.new directoryCapacity ∧
    node.extent.size = directoryCapacity * slotSize
  apart : entry.sector ∉ node.extent.sectors
  free : ∀ i ∈ node.extent.owned entry.sector, i < n ∧ ¬ c.Owns i

namespace Insertion

variable {n : Nat} {c : Catalog} (ins : Insertion n c)

def result : Catalog := c.relink ins.parent ins.new ins.entry.sector (some ins.node)

theorem not_owns_sector : ¬ c.Owns ins.entry.sector := (ins.free _ List.mem_cons_self).2

/-- The table changes. -/
theorem new_ne_old : ins.new ≠ ins.old := by
  intro same
  have there := congrFun ins.held ins.slot
  rw [same, ins.empty, Function.update_self] at there
  cases there

theorem ne_of_node {s : Nat} {node : Node} (h : c s = some node) : s ≠ ins.entry.sector := by
  rintro rfl
  exact ins.not_owns_sector (owns_header h)

theorem exists_parent : ∃ extent, c ins.parent = some ⟨extent, some ins.old⟩ :=
  table?_eq_some_iff.mp ins.table

theorem parent_ne : ins.parent ≠ ins.entry.sector := by
  obtain ⟨extent, h⟩ := ins.exists_parent
  exact ins.ne_of_node h

theorem result_self : ins.result ins.entry.sector = some ins.node := relink_self

theorem result_parent {extent : Extent} (h : c ins.parent = some ⟨extent, some ins.old⟩) :
    ins.result ins.parent = some ⟨extent, some ins.new⟩ := by
  rw [result, relink_parent ins.parent_ne, h]
  rfl

/-- A node of the result is the new one, the parent, or as it was. -/
theorem result_cases {s : Nat} {node : Node} (h : ins.result s = some node) :
    s = ins.entry.sector ∧ node = ins.node ∨
    s = ins.parent ∧ c s = some ⟨node.extent, some ins.old⟩ ∧ node.table = some ins.new ∨
    s ≠ ins.entry.sector ∧ s ≠ ins.parent ∧ c s = some node := by
  by_cases hs : s = ins.entry.sector
  · subst hs
    rw [ins.result_self, Option.some.injEq] at h
    exact .inl ⟨rfl, h.symm⟩
  · by_cases hp : s = ins.parent
    · subst hp
      obtain ⟨extent, hold⟩ := ins.exists_parent
      rw [ins.result_parent hold, Option.some.injEq] at h
      subst h
      exact .inr (.inl ⟨rfl, hold, rfl⟩)
    · rw [result, relink_of_ne hs hp] at h
      exact .inr (.inr ⟨hs, hp, h⟩)

/-- Exactly one entry is new. -/
theorem held?_result (q j : Nat) :
    ins.result.held? q j = if q = ins.parent ∧ j = ins.slot then some ins.entry
      else c.held? q j := by
  by_cases hs : q = ins.entry.sector
  · subst hs
    have missing : c ins.entry.sector = none := by
      cases hn : c ins.entry.sector with
      | none => rfl
      | some node => exact absurd (owns_header hn) ins.not_owns_sector
    rw [if_neg (fun h => ins.parent_ne h.1.symm), held?, held?, table?, table?, ins.result_self,
      missing]
    cases ht : ins.node.table with
    | none => simp [ht]
    | some dir => simp [ht, (ins.bare dir ht).1]
  · by_cases hp : q = ins.parent
    · subst hp
      rw [held?, held?, result, table?_relink_parent ins.parent_ne ins.table, ins.table,
        Option.bind_some, Option.bind_some, ins.held, Function.update_apply]
      simp
    · rw [if_neg (fun h => hp h.1), held?, held?, result, table?_relink_of_ne hs hp]

theorem held?_result_new : ins.result.held? ins.parent ins.slot = some ins.entry := by
  rw [ins.held?_result, if_pos ⟨rfl, rfl⟩]

theorem held?_slot : c.held? ins.parent ins.slot = none := by
  simp [held?, ins.table, ins.empty]

theorem held?_result_of_held? {q j : Nat} {e : Entry} (h : c.held? q j = some e) :
    ins.result.held? q j = some e := by
  rw [ins.held?_result, if_neg, h]
  rintro ⟨rfl, rfl⟩
  rw [ins.held?_slot] at h
  cases h

theorem owns_result {i : Nat} :
    ins.result.Owns i ↔ i ∈ ins.node.extent.owned ins.entry.sector ∨ c.Owns i := by
  constructor
  · rintro ⟨s, node, hs, hi⟩
    rcases ins.result_cases hs with ⟨rfl, rfl⟩ | ⟨-, hc, -⟩ | ⟨-, -, hc⟩
    · exact .inl hi
    · exact .inr ⟨s, _, hc, hi⟩
    · exact .inr ⟨s, node, hc, hi⟩
  · rintro (hi | ⟨s, node, hs, hi⟩)
    · exact ⟨_, _, ins.result_self, hi⟩
    · obtain ⟨node', hs', he⟩ := exists_relink ins.parent ins.new (some ins.node)
        (ins.ne_of_node hs) hs
      exact ⟨s, node', hs', he ▸ hi⟩

/-- A sector of a node belongs to the new one, or belonged to the same node before. -/
theorem owned_cases {s i : Nat} {node : Node} (h : ins.result s = some node)
    (hi : i ∈ node.extent.owned s) :
    s = ins.entry.sector ∧ i ∈ ins.node.extent.owned ins.entry.sector ∨
      ∃ node', c s = some node' ∧ i ∈ node'.extent.owned s := by
  rcases ins.result_cases h with ⟨rfl, rfl⟩ | ⟨-, hc, -⟩ | ⟨-, -, hc⟩
  · exact .inl ⟨rfl, hi⟩
  · exact .inr ⟨_, hc, hi⟩
  · exact .inr ⟨_, hc, hi⟩

variable (v : c.Valid n)
include v

theorem tidy_result : ins.result.Tidy := by
  intro s dir h
  obtain ⟨extent, hs⟩ := table?_eq_some_iff.mp h
  rcases ins.result_cases hs with ⟨-, hnode⟩ | ⟨-, -, ht⟩ | ⟨-, -, hc⟩
  · obtain ⟨rfl, -⟩ := ins.bare dir (by rw [← hnode]; rfl)
    exact Directory.tidy_new _
  · obtain rfl := Option.some.inj ht
    exact ins.tidy
  · exact v.tidy s dir (table?_eq_some_iff.mpr ⟨extent, hc⟩)

/-- Old ways stay. -/
theorem find?_result {path : List String} {s : Nat} (h : c.find? path = some s) :
    ins.result.find? path = some s := by
  induction path using List.reverseRecOn generalizing s with
  | nil => exact h
  | append_singleton path name ih =>
    obtain ⟨p, e, hp, he, rfl⟩ := find?_concat_eq_some_iff.mp h
    obtain ⟨j, hj, hname⟩ := v.tidy.child?_eq_some_iff.mp he
    have there := (ins.tidy_result v).child?_eq_some_iff.mpr
      ⟨j, ins.held?_result_of_held? hj, hname⟩
    exact find?_concat_eq_some_iff.mpr ⟨p, e, ih hp, there, rfl⟩

/-- The way to the new node goes through its parent. -/
theorem find?_result_new {path : List String} (h : c.find? path = some ins.parent) :
    ins.result.find? (path ++ [ins.entry.name]) = some ins.entry.sector := by
  have there := (ins.tidy_result v).child?_eq_some_iff.mpr ⟨_, ins.held?_result_new, rfl⟩
  exact find?_concat_eq_some_iff.mpr ⟨_, _, ins.find?_result v h, there, rfl⟩

/-- The way to the new node is the only new one. -/
theorem find?_result_iff {path : List String} {s : Nat} :
    ins.result.find? path = some s ↔ c.find? path = some s ∨
      s = ins.entry.sector ∧ ∃ way, c.find? way = some ins.parent ∧
        path = way ++ [ins.entry.name] := by
  constructor
  · intro h
    induction path using List.reverseRecOn generalizing s with
    | nil => exact .inl h
    | append_singleton path name ih =>
      obtain ⟨p, e, hp, he, rfl⟩ := find?_concat_eq_some_iff.mp h
      obtain ⟨j, hj, rfl⟩ := (ins.tidy_result v).child?_eq_some_iff.mp he
      rw [ins.held?_result] at hj
      by_cases new : p = ins.parent ∧ j = ins.slot
      · obtain ⟨rfl, rfl⟩ := new
        rw [if_pos ⟨rfl, rfl⟩, Option.some.injEq] at hj
        subst hj
        rcases ih hp with hp | ⟨same, -⟩
        · exact .inr ⟨rfl, path, hp, rfl⟩
        · exact absurd same ins.parent_ne
      · rw [if_neg new] at hj
        obtain ⟨dir, hdir, -⟩ := held?_eq_some_iff.mp hj
        obtain ⟨extent, hnode⟩ := table?_eq_some_iff.mp hdir
        rcases ih hp with hp | ⟨same, -⟩
        · exact .inl (find?_concat_eq_some_iff.mpr
            ⟨p, e, hp, v.tidy.child?_eq_some_iff.mpr ⟨j, hj, rfl⟩, rfl⟩)
        · exact absurd same (ins.ne_of_node hnode)
  · rintro (h | ⟨rfl, way, hway, rfl⟩)
    · exact ins.find?_result v h
    · exact ins.find?_result_new v hway

/-- The sector of the new node was neither of the system sectors. -/
theorem sector_ne_system :
    ins.entry.sector ≠ freeMapSector ∧ ins.entry.sector ≠ rootSector := by
  obtain ⟨extent, hmap, -⟩ := v.map
  obtain ⟨dir, hdir⟩ := v.root
  obtain ⟨extent', hroot⟩ := table?_eq_some_iff.mp hdir
  exact ⟨(ins.ne_of_node hmap).symm, (ins.ne_of_node hroot).symm⟩

theorem child_result {p i : Nat} {e : Entry} (h : ins.result.held? p i = some e) :
    e.sector ≠ freeMapSector ∧ e.sector ≠ rootSector ∧
      ∃ node, ins.result e.sector = some node ∧ node.table.isSome = e.isDirectory := by
  rw [ins.held?_result] at h
  split at h
  · obtain rfl := Option.some.inj h
    obtain ⟨hmap, hroot⟩ := ins.sector_ne_system v
    exact ⟨hmap, hroot, ins.node, ins.result_self, ins.kind⟩
  · obtain ⟨hmap, hroot, node, hnode, kind⟩ := v.child p i e h
    refine ⟨hmap, hroot, ?_⟩
    by_cases hp : e.sector = ins.parent
    · obtain ⟨extent, hold⟩ := ins.exists_parent
      rw [hp] at hnode ⊢
      rw [hold, Option.some.injEq] at hnode
      subst hnode
      exact ⟨_, ins.result_parent hold, kind⟩
    · exact ⟨node, (relink_of_ne (ins.ne_of_node hnode) hp).trans hnode, kind⟩

/-- The one entry for the new sector is the new one. -/
theorem single_result {p q i j : Nat} {e f : Entry} (he : ins.result.held? p i = some e)
    (hf : ins.result.held? q j = some f) (same : e.sector = f.sector) : p = q ∧ i = j := by
  have old {p i : Nat} {e : Entry} (h : c.held? p i = some e) : e.sector ≠ ins.entry.sector := by
    obtain ⟨-, -, node, hnode, -⟩ := v.child p i e h
    exact ins.ne_of_node hnode
  rw [ins.held?_result] at he hf
  by_cases hp : p = ins.parent ∧ i = ins.slot <;> by_cases hq : q = ins.parent ∧ j = ins.slot
  · exact ⟨hp.1.trans hq.1.symm, hp.2.trans hq.2.symm⟩
  · rw [if_pos hp, Option.some.injEq] at he
    rw [if_neg hq] at hf
    exact absurd (same.symm.trans (congrArg Entry.sector he.symm)) (old hf)
  · rw [if_neg hp] at he
    rw [if_pos hq, Option.some.injEq] at hf
    exact absurd (same.trans (congrArg Entry.sector hf.symm)) (old he)
  · rw [if_neg hp] at he
    rw [if_neg hq] at hf
    exact v.single p q i j e f he hf same

/-- An insertion keeps the catalog valid. -/
theorem valid : ins.result.Valid n where
  map := by
    obtain ⟨extent, hmap, size⟩ := v.map
    have ne := (v.ne_map ins.table).symm
    exact ⟨extent, (relink_of_ne (ins.ne_of_node hmap) ne).trans hmap, size⟩
  root := by
    obtain ⟨dir, hdir⟩ := v.root
    by_cases hp : rootSector = ins.parent
    · exact ⟨ins.new, hp ▸ table?_relink_parent ins.parent_ne ins.table⟩
    · exact ⟨dir, (table?_relink_of_ne (ins.sector_ne_system v).2.symm hp).trans hdir⟩
  directory s extent dir h := by
    rcases ins.result_cases h with ⟨-, hnode⟩ | ⟨rfl, hc, ht⟩ | ⟨-, -, hc⟩
    · obtain ⟨rfl, size⟩ := ins.bare dir (by rw [← hnode]; rfl)
      rw [← hnode] at size
      exact ⟨Directory.tidy_new _, Directory.capacity_new _, size⟩
    · obtain rfl := Option.some.inj ht
      obtain ⟨-, capacity, size⟩ := v.directory _ _ _ hc
      exact ⟨ins.tidy, ins.capacity.trans capacity, size⟩
    · exact v.directory s extent dir hc
  apart s node h := by
    rcases ins.result_cases h with ⟨rfl, rfl⟩ | ⟨-, hc, -⟩ | ⟨-, -, hc⟩
    · exact ins.apart
    · exact v.apart s ⟨node.extent, some ins.old⟩ hc
    · exact v.apart s node hc
  lt i h := by
    rcases ins.owns_result.mp h with hi | hi
    · exact (ins.free i hi).1
    · exact v.lt i hi
  disjoint s t a b i hs ht hi hj := by
    rcases ins.owned_cases hs hi with ⟨rfl, new⟩ | ⟨a', ha, hi⟩ <;>
      rcases ins.owned_cases ht hj with ⟨rfl, new'⟩ | ⟨b', hb, hj⟩
    · rfl
    · exact absurd ⟨t, b', hb, hj⟩ (ins.free i new).2
    · exact absurd ⟨s, a', ha, hi⟩ (ins.free i new').2
    · exact v.disjoint s t a' b' i ha hb hi hj
  child p i e h := ins.child_result v h
  single p q i j e f he hf same := ins.single_result v he hf same
  reached s node h := by
    rcases ins.result_cases h with ⟨rfl, -⟩ | ⟨rfl, hc, -⟩ | ⟨-, -, hc⟩
    · obtain ⟨extent, hparent⟩ := ins.exists_parent
      obtain ⟨path, hpath⟩ := (v.reached _ _ hparent).resolve_left (v.ne_map ins.table)
      exact .inr ⟨_, ins.find?_result_new v hpath⟩
    · exact (v.reached _ _ hc).imp_right fun ⟨path, hpath⟩ => ⟨path, ins.find?_result v hpath⟩
    · exact (v.reached _ _ hc).imp_right fun ⟨path, hpath⟩ => ⟨path, ins.find?_result v hpath⟩

end Insertion

end SectorFS.Catalog
