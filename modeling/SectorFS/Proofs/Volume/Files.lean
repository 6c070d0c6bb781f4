import SectorFS.Proofs.Volume.Namespace
import SectorFS.Proofs.Volume.Relink

/-!
# The files of a catalog

`Catalog.files` gives the bytes of every file by its path. Entering a file adds its bytes, entering
a directory adds nothing, taking a node out takes at most one file away, and writing into one file
changes the bytes of that file alone.
-/

namespace SectorFS.Catalog

/-- The header sector and the bytes of the file at a path. -/
def files (c : Catalog) (store : Store) (path : List String) : Option (Nat × List UInt8) :=
  (c.find? path).bind fun s => (c s).bind fun node =>
    match node.table with
    | none => some (s, (store.bytes node.extent.data).take node.extent.size)
    | some _ => none

variable {c : Catalog} {n s : Nat} {store : Store} {map : FreeMap} {ws : Writes}
variable {path : List String}

theorem files_of_find? {node : Node} (h : c.find? path = some s) (hs : c s = some node) :
    c.files store path =
      match node.table with
      | none => some (s, (store.bytes node.extent.data).take node.extent.size)
      | some _ => none := by
  simp [files, h, hs]

theorem files_eq_none_of_find? (h : c.find? path = none) : c.files store path = none := by
  simp [files, h]

theorem files_eq_some_iff {bytes : List UInt8} :
    c.files store path = some (s, bytes) ↔ c.find? path = some s ∧
      ∃ extent, c s = some ⟨extent, none⟩ ∧ (store.bytes extent.data).take extent.size = bytes := by
  constructor
  · intro h
    obtain ⟨t, ht, h⟩ := Option.bind_eq_some_iff.mp h
    obtain ⟨⟨extent, table⟩, hnode, h⟩ := Option.bind_eq_some_iff.mp h
    cases table with
    | none =>
      obtain ⟨rfl, rfl⟩ := Prod.mk.inj (Option.some.inj h)
      exact ⟨ht, extent, hnode, rfl⟩
    | some dir => cases h
  · rintro ⟨h, extent, hs, rfl⟩
    exact files_of_find? h hs

namespace Valid

variable (v : c.Valid n)
include v

/-- The new path led nowhere before. -/
theorem find?_insertion_eq_none (ins : Insertion n c) (h : c.find? path = some ins.parent) :
    c.find? (path ++ [ins.entry.name]) = none := by
  apply find?_concat_eq_none h
  rw [Option.eq_none_iff_forall_not_mem]
  intro e he
  obtain ⟨i, hi, hname⟩ := v.tidy.child?_eq_some_iff.mp he
  obtain ⟨dir, hdir, held⟩ := held?_eq_some_iff.mp hi
  rw [ins.table, Option.some.injEq] at hdir
  subst hdir
  exact ins.fresh_name i e held hname

end Valid

/-- A catalog with the same ways to the same files, which hold the same bytes, has the same files.
-/
theorem files_congr {c' : Catalog} {store' : Store} (v : c.Valid n)
    (h : ∀ s node, c.find? path = some s → c s = some node → c'.find? path = some s ∧
      ∃ node', c' s = some node' ∧ node'.extent = node.extent ∧
        node'.table.isSome = node.table.isSome ∧
        (node.table = none → store'.bytes node.extent.data = store.bytes node.extent.data))
    (h' : c.find? path = none → c'.find? path = none) :
    c'.files store' path = c.files store path := by
  cases hs : c.find? path with
  | none => rw [files_eq_none_of_find? hs, files_eq_none_of_find? (h' hs)]
  | some s =>
    obtain ⟨-, ⟨extent, table⟩, hnode⟩ := v.exists_node_of_find? hs
    obtain ⟨hs', ⟨extent', table'⟩, hnode', rfl, kind, bytes⟩ := h s _ hs hnode
    rw [files_of_find? hs hnode, files_of_find? hs' hnode']
    cases table with
    | none =>
      cases table' with
      | none =>
        simp only
        rw [bytes rfl]
      | some dir => cases kind
    | some dir =>
      cases table' with
      | none => cases kind
      | some dir' => rfl

/-- Entering a node adds its bytes if it is a file. -/
theorem Insertion.files_result (ins : Insertion n c) (v : c.Valid n)
    (k : c.Kept store ws ins.result) (h : c.find? path = some ins.parent) :
    ins.result.files (store.after ws) =
      Function.update (c.files store) (path ++ [ins.entry.name])
        (match ins.node.table with
        | none => some (ins.entry.sector,
            ((store.after ws).bytes ins.node.extent.data).take ins.node.extent.size)
        | some _ => none) := by
  funext way
  by_cases hway : way = path ++ [ins.entry.name]
  · subst hway
    rw [Function.update_self]
    exact files_of_find? (ins.find?_result_new v h) ins.result_self
  · rw [Function.update_of_ne hway]
    apply files_congr v
    · intro s node hs hnode
      obtain ⟨node', hnode', he, kind⟩ := k.node s node hnode
      refine ⟨ins.find?_result v hs, node', hnode', he, kind, fun htable => ?_⟩
      obtain ⟨extent, table⟩ := node
      obtain rfl : table = none := htable
      exact k.bytes s extent hnode (v.exists_node_of_find? hs).1
    · intro hnone
      rw [Option.eq_none_iff_forall_not_mem]
      intro s hnew
      rcases (ins.find?_result_iff v).mp hnew with hold | ⟨-, path', hpath', rfl⟩
      · rw [hnone] at hold
        cases hold
      · exact hway (by rw [v.find?_inj hpath' h])

/-- Entering a directory changes no file. -/
theorem Insertion.files_result_of_table (ins : Insertion n c) (v : c.Valid n)
    (k : c.Kept store ws ins.result) (h : c.find? path = some ins.parent) {dir : Directory}
    (ht : ins.node.table = some dir) : ins.result.files (store.after ws) = c.files store := by
  rw [ins.files_result v k h, ht]
  apply Function.update_eq_self_iff.mpr
  exact (files_eq_none_of_find? (v.find?_insertion_eq_none ins h)).symm

/-- Taking a node out takes a file away at most, the one at its path. -/
theorem Removal.files_result (rem : Removal c) (l : c.LaidOut n store map)
    (r : c.Relinks rem.parent ws) (h : c.find? path = some rem.parent) :
    rem.result.files (store.after ws) =
      Function.update (c.files store) (path ++ [rem.entry.name]) none := by
  have v := l.valid
  have there := rem.find?_entry v h
  funext way
  by_cases hway : way = path ++ [rem.entry.name]
  · subst hway
    rw [Function.update_self]
    apply files_eq_none_of_find?
    rw [Option.eq_none_iff_forall_not_mem]
    intro s hs
    obtain ⟨hs, ne⟩ := (rem.find?_result_iff v).mp hs
    rw [there, Option.some.injEq] at hs
    exact ne hs.symm
  · rw [Function.update_of_ne hway]
    apply files_congr v
    · intro s node hs hnode
      have ne : s ≠ rem.entry.sector := by
        rintro rfl
        exact hway (v.find?_inj hs there)
      refine ⟨(rem.find?_result_iff v).mpr ⟨hs, ne⟩, ?_⟩
      by_cases hp : s = rem.parent
      · obtain ⟨extent, hparent⟩ := rem.exists_parent
        subst hp
        rw [hparent, Option.some.injEq] at hnode
        subst hnode
        exact ⟨_, rem.result_parent hparent, rfl, rfl, nofun⟩
      · exact ⟨node, (relink_of_ne ne hp).trans hnode, rfl, rfl, fun _ =>
          l.bytes_of_relinks r hnode hp (v.exists_node_of_find? hs).1⟩
    · intro hnone
      rw [Option.eq_none_iff_forall_not_mem]
      intro s hnew
      rw [((rem.find?_result_iff v).mp hnew).1] at hnone
      cases hnone

/-- Writing into one file changes the bytes of that file alone. -/
theorem LaidOut.files_write_data (l : c.LaidOut n store map) {extent : Extent}
    (h : c s = some ⟨extent, none⟩) (hpath : c.find? path = some s)
    (targets : ∀ w ∈ ws, w.1 ∈ extent.data) :
    c.files (store.after ws) = Function.update (c.files store) path
      (some (s, ((store.after ws).bytes extent.data).take extent.size)) := by
  funext way
  by_cases hway : way = path
  · subst hway
    simp [files_of_find? hpath h]
  · rw [Function.update_of_ne hway]
    apply files_congr l.valid
    · intro t node ht hnode
      refine ⟨ht, node, hnode, rfl, rfl, fun _ => ?_⟩
      have other : s ≠ t := by
        rintro rfl
        exact hway (l.valid.find?_inj ht hpath)
      exact l.bytes_after_data h hnode other targets store
    · exact id

end SectorFS.Catalog
