import SectorFS.Proofs.Volume.Insertion

/-!
# Taking a node out

A `Removal` empties the slot of a file or of an empty directory. It keeps the catalog valid
(`Removal.valid`), gives back the sectors of the node (`Removal.owns_result`), and no way but the
one to the node is lost (`Removal.find?_result_iff`).
-/

namespace SectorFS.Catalog

/-- A node without entries, with the slot that it is entered in. -/
structure Removal (c : Catalog) where
  parent : Nat
  old : Directory
  new : Directory
  slot : Nat
  entry : Entry
  node : Node
  table : c.table? parent = some old
  there : old.held slot = some entry
  tidy : new.Tidy
  capacity : new.capacity = old.capacity
  held : new.held = Function.update old.held slot none
  node_at : c entry.sector = some node
  bare : ∀ dir ∈ node.table, ∀ i, dir.held i = none

namespace Removal

variable {c : Catalog} (rem : Removal c)

def result : Catalog := c.relink rem.parent rem.new rem.entry.sector none

theorem exists_parent : ∃ extent, c rem.parent = some ⟨extent, some rem.old⟩ :=
  table?_eq_some_iff.mp rem.table

/-- The directory itself is not empty. -/
theorem parent_ne : rem.parent ≠ rem.entry.sector := by
  intro same
  obtain ⟨extent, h⟩ := rem.exists_parent
  have node := rem.node_at
  rw [← same, h, Option.some.injEq] at node
  have empty := rem.bare rem.old (by rw [← node]; rfl) rem.slot
  rw [rem.there] at empty
  cases empty

theorem result_self : rem.result rem.entry.sector = none := relink_self

theorem result_parent {extent : Extent} (h : c rem.parent = some ⟨extent, some rem.old⟩) :
    rem.result rem.parent = some ⟨extent, some rem.new⟩ := by
  rw [result, relink_parent rem.parent_ne, h]
  rfl

/-- A node of the result is the parent or as it was. -/
theorem result_cases {s : Nat} {node : Node} (h : rem.result s = some node) :
    s ≠ rem.entry.sector ∧
      (s = rem.parent ∧ c s = some ⟨node.extent, some rem.old⟩ ∧ node.table = some rem.new ∨
      s ≠ rem.parent ∧ c s = some node) := by
  by_cases hs : s = rem.entry.sector
  · subst hs
    rw [rem.result_self] at h
    cases h
  · by_cases hp : s = rem.parent
    · subst hp
      obtain ⟨extent, hold⟩ := rem.exists_parent
      rw [rem.result_parent hold, Option.some.injEq] at h
      subst h
      exact ⟨hs, .inl ⟨rfl, hold, rfl⟩⟩
    · rw [result, relink_of_ne hs hp] at h
      exact ⟨hs, .inr ⟨hp, h⟩⟩

theorem exists_of_result {s : Nat} {node : Node} (h : rem.result s = some node) :
    ∃ node', c s = some node' ∧ node'.extent = node.extent := by
  obtain ⟨-, ⟨-, hc, -⟩ | ⟨-, hc⟩⟩ := rem.result_cases h
  · exact ⟨_, hc, rfl⟩
  · exact ⟨node, hc, rfl⟩

/-- All other nodes are still there. -/
theorem exists_result {s : Nat} {node : Node} (h : c s = some node) (ne : s ≠ rem.entry.sector) :
    ∃ node', rem.result s = some node' ∧ node'.extent = node.extent ∧
      node'.table.isSome = node.table.isSome := by
  by_cases hp : s = rem.parent
  · obtain ⟨extent, hparent⟩ := rem.exists_parent
    subst hp
    rw [hparent, Option.some.injEq] at h
    subst h
    exact ⟨_, rem.result_parent hparent, rfl, rfl⟩
  · exact ⟨node, (relink_of_ne ne hp).trans h, rfl, rfl⟩

theorem held?_slot : c.held? rem.parent rem.slot = some rem.entry :=
  held?_eq_some_iff.mpr ⟨_, rem.table, rem.there⟩

/-- Exactly one entry is gone. -/
theorem held?_result (q j : Nat) :
    rem.result.held? q j = if q = rem.parent ∧ j = rem.slot then none else c.held? q j := by
  by_cases hs : q = rem.entry.sector
  · subst hs
    rw [if_neg (fun h => rem.parent_ne h.1.symm), held?, held?, table?, table?, rem.result_self,
      rem.node_at]
    cases ht : rem.node.table with
    | none => simp [ht]
    | some dir => simp [ht, rem.bare dir ht]
  · by_cases hp : q = rem.parent
    · subst hp
      rw [held?, held?, result, table?_relink_parent rem.parent_ne rem.table, rem.table,
        Option.bind_some, Option.bind_some, rem.held, Function.update_apply]
      simp
    · rw [if_neg (fun h => hp h.1), held?, held?, result, table?_relink_of_ne hs hp]

theorem held?_of_result {q j : Nat} {e : Entry} (h : rem.result.held? q j = some e) :
    c.held? q j = some e ∧ ¬ (q = rem.parent ∧ j = rem.slot) := by
  rw [rem.held?_result] at h
  split at h
  · cases h
  · rename_i other
    exact ⟨h, other⟩

variable {n : Nat} (v : c.Valid n)
include v

theorem tidy_result : rem.result.Tidy := by
  intro s dir h
  obtain ⟨extent, hs⟩ := table?_eq_some_iff.mp h
  obtain ⟨-, ⟨-, -, ht⟩ | ⟨-, hc⟩⟩ := rem.result_cases hs
  · obtain rfl := Option.some.inj ht
    exact rem.tidy
  · exact v.tidy s dir (table?_eq_some_iff.mpr ⟨extent, hc⟩)

/-- Where the node is found before it is taken out. -/
theorem find?_entry {path : List String} (h : c.find? path = some rem.parent) :
    c.find? (path ++ [rem.entry.name]) = some rem.entry.sector :=
  find?_concat_eq_some_iff.mpr
    ⟨_, _, h, v.tidy.child?_eq_some_iff.mpr ⟨_, rem.held?_slot, rfl⟩, rfl⟩

/-- The sectors of the node have no owner any more. -/
theorem owns_result {i : Nat} :
    rem.result.Owns i ↔ i ∉ rem.node.extent.owned rem.entry.sector ∧ c.Owns i := by
  constructor
  · rintro ⟨s, node, hs, hi⟩
    obtain ⟨ne, -⟩ := rem.result_cases hs
    obtain ⟨node', hc, he⟩ := rem.exists_of_result hs
    rw [← he] at hi
    refine ⟨fun hm => ?_, s, node', hc, hi⟩
    exact ne (v.disjoint s _ node' rem.node i hc rem.node_at hi hm)
  · rintro ⟨hm, s, node, hs, hi⟩
    have ne : s ≠ rem.entry.sector := by
      rintro rfl
      rw [rem.node_at, Option.some.injEq] at hs
      exact hm (hs ▸ hi)
    obtain ⟨node', hs', he⟩ := exists_relink rem.parent rem.new none ne hs
    exact ⟨s, node', hs', he ▸ hi⟩

/-- The node has no way through it. -/
theorem find?_result {path : List String} {s : Nat} (h : c.find? path = some s)
    (ne : s ≠ rem.entry.sector) : rem.result.find? path = some s := by
  induction path using List.reverseRecOn generalizing s with
  | nil => exact h
  | append_singleton path name ih =>
    obtain ⟨p, e, hp, he, rfl⟩ := find?_concat_eq_some_iff.mp h
    obtain ⟨j, hj, hname⟩ := v.tidy.child?_eq_some_iff.mp he
    have other : ¬ (p = rem.parent ∧ j = rem.slot) := by
      rintro ⟨rfl, rfl⟩
      rw [rem.held?_slot, Option.some.injEq] at hj
      exact ne (congrArg Entry.sector hj.symm)
    have through : p ≠ rem.entry.sector := by
      rintro rfl
      obtain ⟨dir, hdir, held⟩ := held?_eq_some_iff.mp hj
      rw [table?, rem.node_at] at hdir
      rw [rem.bare dir hdir] at held
      cases held
    have there := (rem.tidy_result v).child?_eq_some_iff.mpr
      ⟨j, by rw [rem.held?_result, if_neg other, hj], hname⟩
    exact find?_concat_eq_some_iff.mpr ⟨p, e, ih hp through, there, rfl⟩

/-- The way to the node is the only one that is lost. -/
theorem find?_result_iff {path : List String} {s : Nat} :
    rem.result.find? path = some s ↔ c.find? path = some s ∧ s ≠ rem.entry.sector := by
  constructor
  · intro h
    induction path using List.reverseRecOn generalizing s with
    | nil =>
      obtain rfl := Option.some.inj h
      exact ⟨rfl, (v.child _ _ _ rem.held?_slot).2.1.symm⟩
    | append_singleton path name ih =>
      obtain ⟨p, e, hp, he, rfl⟩ := find?_concat_eq_some_iff.mp h
      obtain ⟨j, hj, hname⟩ := (rem.tidy_result v).child?_eq_some_iff.mp he
      obtain ⟨hj, other⟩ := rem.held?_of_result hj
      obtain ⟨hp, -⟩ := ih hp
      refine ⟨find?_concat_eq_some_iff.mpr
        ⟨p, e, hp, v.tidy.child?_eq_some_iff.mpr ⟨j, hj, hname⟩, rfl⟩, fun same => other ?_⟩
      exact v.single _ _ _ _ _ _ hj rem.held?_slot same
  · rintro ⟨h, ne⟩
    exact rem.find?_result v h ne

/-- A removal keeps the catalog valid. -/
theorem valid : rem.result.Valid n where
  map := by
    obtain ⟨extent, hmap, size⟩ := v.map
    have ne := (v.child _ _ _ rem.held?_slot).1.symm
    exact ⟨extent, (relink_of_ne ne (v.ne_map rem.table).symm).trans hmap, size⟩
  root := by
    obtain ⟨dir, hdir⟩ := v.root
    by_cases hp : rootSector = rem.parent
    · exact ⟨rem.new, hp ▸ table?_relink_parent rem.parent_ne rem.table⟩
    · have ne := (v.child _ _ _ rem.held?_slot).2.1.symm
      exact ⟨dir, (table?_relink_of_ne ne hp).trans hdir⟩
  directory s extent dir h := by
    obtain ⟨-, ⟨-, hc, ht⟩ | ⟨-, hc⟩⟩ := rem.result_cases h
    · obtain rfl := Option.some.inj ht
      obtain ⟨-, capacity, size⟩ := v.directory _ _ _ hc
      exact ⟨rem.tidy, rem.capacity.trans capacity, size⟩
    · exact v.directory s extent dir hc
  apart s node h := by
    obtain ⟨node', hc, he⟩ := rem.exists_of_result h
    exact he ▸ v.apart s node' hc
  lt i h := v.lt i ((rem.owns_result v).mp h).2
  disjoint s t a b i hs ht hi hj := by
    obtain ⟨a', ha, hea⟩ := rem.exists_of_result hs
    obtain ⟨b', hb, heb⟩ := rem.exists_of_result ht
    exact v.disjoint s t a' b' i ha hb (hea ▸ hi) (heb ▸ hj)
  child p i e h := by
    obtain ⟨he, other⟩ := rem.held?_of_result h
    obtain ⟨hmap, hroot, node, hnode, kind⟩ := v.child p i e he
    have ne : e.sector ≠ rem.entry.sector := fun same =>
      other (v.single _ _ _ _ _ _ he rem.held?_slot same)
    refine ⟨hmap, hroot, ?_⟩
    by_cases hp : e.sector = rem.parent
    · obtain ⟨extent, hold⟩ := rem.exists_parent
      rw [hp] at hnode ⊢
      rw [hold, Option.some.injEq] at hnode
      subst hnode
      exact ⟨_, rem.result_parent hold, kind⟩
    · exact ⟨node, (relink_of_ne ne hp).trans hnode, kind⟩
  single p q i j e f he hf same :=
    v.single p q i j e f (rem.held?_of_result he).1 (rem.held?_of_result hf).1 same
  reached s node h := by
    obtain ⟨ne, -⟩ := rem.result_cases h
    obtain ⟨node', hc, -⟩ := rem.exists_of_result h
    exact (v.reached s node' hc).imp_right fun ⟨path, hpath⟩ => ⟨path, rem.find?_result v hpath ne⟩

end Removal

end SectorFS.Catalog
