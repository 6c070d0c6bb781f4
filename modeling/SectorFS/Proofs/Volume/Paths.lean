import Mathlib.Data.List.TakeWhile
import SectorFS.Proofs.Volume.Descriptors
import SectorFS.Proofs.Volume.Steps

/-!
# The two readings of a path

Finding takes a path as its components. Making, opening and removing cut it at the last separator
and take what stands behind that as a name. Both lead the same way when the path does not end in a
separator (`Path.components_eq_target`), as every path does not that leads to a file.
-/

namespace SectorFS

namespace Path

/-- A separator parts the names before it from those behind it. -/
theorem namesIn_append (front back : List Char) :
    namesIn (front ++ separator :: back) = namesIn front ++ namesIn back := by
  fun_induction namesIn front with
  | case1 => simp [namesIn]
  | case2 rest ih => simpa [namesIn] using ih
  | case3 c rest hc ih =>
    have taken : (rest ++ separator :: back).takeWhile (· != separator) =
        rest.takeWhile (· != separator) := by
      rw [List.takeWhile_append]
      split
      · rename_i whole
        simp [(List.takeWhile_prefix _).eq_of_length whole]
      · rfl
    have dropped : (rest ++ separator :: back).dropWhile (· != separator) =
        rest.dropWhile (· != separator) ++ separator :: back := by
      rw [List.dropWhile_append]
      split
      · rename_i empty
        simp [List.isEmpty_iff.mp empty]
      · rfl
    rw [List.cons_append, namesIn, if_neg hc, taken, dropped, ih, List.cons_append]

/-- A text without a separator is one name. -/
theorem namesIn_of_forall {chars : List Char} (some : chars ≠ [])
    (whole : ∀ c ∈ chars, (c != separator) = true) : namesIn chars = [String.ofList chars] := by
  cases chars with
  | nil => exact absurd rfl some
  | cons c rest =>
    obtain ⟨first, others⟩ := List.forall_mem_cons.mp whole
    rw [namesIn, if_neg (bne_iff_ne.mp first), List.takeWhile_eq_self_iff.mpr others,
      List.dropWhile_eq_nil_iff.mpr others, namesIn]

theorem ne_separator_of_mem_leaf {path : String} {c : Char} (h : c ∈ (leaf path).toList) :
    (c != separator) = true := by
  simp only [leaf, splitLast, String.toList_ofList, List.mem_reverse] at h
  exact List.mem_takeWhile_imp (p := (· != separator)) h

/-- No name holds a separator. -/
theorem separator_notMem_of_mem_namesIn {chars : List Char} {name : String}
    (h : name ∈ namesIn chars) : separator ∉ name.toList := by
  fun_induction namesIn chars with
  | case1 => cases h
  | case2 rest ih => exact ih h
  | case3 c rest hc ih =>
    rcases List.mem_cons.mp h with rfl | h
    · rw [String.toList_ofList, List.mem_cons, not_or]
      refine ⟨Ne.symm hc, fun hm => ?_⟩
      have apart := List.mem_takeWhile_imp (p := (· != separator)) hm
      simp at apart
    · exact ih h

theorem separator_notMem_leaf {path : String} : separator ∉ (leaf path).toList := fun hm =>
  bne_iff_ne.mp (ne_separator_of_mem_leaf hm) rfl

/-- A path is cut at its last separator, if it has one. -/
theorem splitLast_cases (path : String) :
    path.toList = (splitLast path).1.toList ++ separator :: (leaf path).toList ∨
      splitLast path = ("", path) := by
  have parts := List.takeWhile_append_dropWhile (p := (· != separator)) (l := path.toList.reverse)
  cases h : path.toList.reverse.dropWhile (· != separator) with
  | nil =>
    right
    rw [h, List.append_nil] at parts
    simp [splitLast, h, parts]
  | cons c rest =>
    left
    have last : c = separator := by
      have := List.head?_dropWhile_not (· != separator) path.toList.reverse
      simpa [h] using this
    rw [h, last] at parts
    have whole := congrArg List.reverse parts
    simp only [List.reverse_append, List.reverse_cons, List.reverse_reverse] at whole
    rw [← whole]
    simp [splitLast, leaf, h]

/-- A path that does not end in a separator leads through all its components. -/
theorem components_eq_target {path : String} (named : (leaf path).toList ≠ []) :
    components path = target path := by
  have last : namesIn (leaf path).toList = [leaf path] := by
    rw [namesIn_of_forall named fun c => ne_separator_of_mem_leaf, String.ofList_toList]
  rcases splitLast_cases path with parts | whole
  · rw [components, parts, namesIn_append, last, target, parent, components]
  · have same : leaf path = path := by rw [leaf, whole]
    rw [same] at last
    rw [components, last, target, parent, same, whole]
    simp [components, namesIn]

/-- Paths with the same named target have the same components. -/
theorem components_eq_of_target_eq {path path' : String} (named : (leaf path).toList ≠ [])
    (same : target path' = target path) : components path' = components path := by
  have leaf : leaf path' = leaf path := by
    simpa [target] using congrArg List.getLast? same
  rw [components_eq_target named, components_eq_target (leaf ▸ named), same]

end Path

namespace Catalog.Valid

variable {c : Catalog} {n s : Nat} {path : String} (v : c.Valid n)
include v

/-- What is found at the target of a path has a name. -/
theorem leaf_of_find? (found : c.find? (Path.target path) = some s) :
    (Path.leaf path).toList ≠ [] := by
  obtain ⟨t, entry, -, child, -⟩ := find?_concat_eq_some_iff.mp found
  obtain ⟨i, held, name⟩ := v.tidy.child?_eq_some_iff.mp child
  obtain ⟨dir, table, held⟩ := held?_eq_some_iff.mp held
  rw [← name]
  exact ((v.tidy t dir table).validName held).nonempty

theorem target?_of_find? (found : c.find? (Path.target path) = some s) :
    c.target? path = some s := by
  have named : path ≠ "/" := by
    rintro rfl
    exact v.leaf_of_find? found (by decide)
  rw [target?, if_neg named]
  exact found

end Catalog.Valid

end SectorFS
