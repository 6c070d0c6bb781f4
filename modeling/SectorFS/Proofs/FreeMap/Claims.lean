import Mathlib.Data.List.Induction
import Mathlib.Data.List.Sort
import SectorFS.FreeMap.Basic

/-!
# The free map as a set of used sectors

`FreeMap.Uses` is the set. Claiming takes free sectors into it, and fails only when there are too
few; releasing takes used ones out, and fails on no list of distinct used sectors.
-/

namespace SectorFS.FreeMap

/-- The sector is below the count and marked as used. -/
def Uses (map : FreeMap) (s : Nat) : Prop := map.used[s]? = some true

instance (map : FreeMap) (s : Nat) : Decidable (map.Uses s) := by
  unfold Uses
  infer_instance

theorem Uses.lt {map : FreeMap} {s : Nat} (h : map.Uses s) : s < map.sectorCount :=
  (Array.getElem?_eq_some_iff.mp h).1

theorem isUsed_of_lt {map : FreeMap} {s : Nat} (h : s < map.sectorCount) :
    map.isUsed s = .ok (decide (map.Uses s)) := by
  have found : map.used[s]? = some map.used[s] := Array.getElem?_eq_getElem h
  simp [isUsed, Uses, found]

theorem isUsed_eq_ok_true_iff {map : FreeMap} {s : Nat} :
    map.isUsed s = .ok true ↔ map.Uses s := by
  unfold isUsed Uses
  cases map.used[s]? <;> simp

/-- Maps of one size that agree on a sector say the same about it. -/
theorem isUsed_congr {map map' : FreeMap} {s : Nat} (size : map'.sectorCount = map.sectorCount)
    (h : map'.Uses s ↔ map.Uses s) : map'.isUsed s = map.isUsed s := by
  by_cases hs : s < map.sectorCount
  · have hs' : s < map'.sectorCount := by omega
    rw [isUsed_of_lt hs, isUsed_of_lt hs', decide_eq_decide.mpr h]
  · have hs' : map'.sectorCount ≤ s := by omega
    have missing : map.used[s]? = none := Array.getElem?_eq_none (Nat.le_of_not_lt hs)
    have missing' : map'.used[s]? = none := Array.getElem?_eq_none hs'
    rw [isUsed, isUsed, missing, missing']

theorem getElem?_eq_some_false_iff {map : FreeMap} {s : Nat} :
    map.used[s]? = some false ↔ s < map.sectorCount ∧ ¬ map.Uses s := by
  by_cases h : s < map.sectorCount
  · have found : map.used[s]? = some map.used[s] := Array.getElem?_eq_getElem h
    simp [Uses, found, h]
  · have missing : map.used[s]? = none := Array.getElem?_eq_none (Nat.le_of_not_lt h)
    simp [missing, h]

@[simp] theorem sectorCount_mark (map : FreeMap) (s : Nat) (flag : Bool) :
    (map.mark s flag).sectorCount = map.sectorCount := by
  simp [mark, sectorCount]

theorem uses_mark_true {map : FreeMap} {s : Nat} (h : s < map.sectorCount) (t : Nat) :
    (map.mark s true).Uses t ↔ t = s ∨ map.Uses t := by
  simp only [Uses, mark, Array.getElem?_setIfInBounds]
  by_cases ht : s = t
  · subst ht
    simp [show s < map.used.size from h]
  · simp [ht, Ne.symm ht]

theorem uses_mark_false {map : FreeMap} {s : Nat} (t : Nat) :
    (map.mark s false).Uses t ↔ t ≠ s ∧ map.Uses t := by
  simp only [Uses, mark, Array.getElem?_setIfInBounds]
  by_cases ht : s = t
  · subst ht
    by_cases hs : s < map.used.size <;> simp [hs]
  · simp [ht, Ne.symm ht]

/-- Maps of one size that use the same sectors are equal. -/
theorem ext_uses {map map' : FreeMap} (size : map.sectorCount = map'.sectorCount)
    (h : ∀ s, map.Uses s ↔ map'.Uses s) : map = map' := by
  obtain ⟨used⟩ := map
  obtain ⟨used'⟩ := map'
  congr 1
  apply Array.ext size
  intro i hi hi'
  have := h i
  simp only [Uses, Array.getElem?_eq_getElem hi, Array.getElem?_eq_getElem hi',
    Option.some.injEq] at this
  cases hu : used[i] <;> cases hu' : used'[i] <;> simp_all

/-! ## Claiming -/

theorem mem_sectorsWhere_false {map : FreeMap} {s : Nat} :
    s ∈ map.sectorsWhere false ↔ s < map.sectorCount ∧ ¬ map.Uses s := by
  simp only [sectorsWhere, List.mem_filter, List.mem_range, decide_eq_true_eq,
    getElem?_eq_some_false_iff]
  exact ⟨fun h => h.2, fun h => ⟨h.1, h⟩⟩

theorem nodup_sectorsWhere (map : FreeMap) (flag : Bool) : (map.sectorsWhere flag).Nodup :=
  List.nodup_range.filter _

/-- The free count is the number of free sectors. -/
theorem length_sectorsWhere (map : FreeMap) (flag : Bool) :
    (map.sectorsWhere flag).length = map.used.count flag := by
  obtain ⟨⟨flags⟩⟩ := map
  simp only [sectorsWhere, sectorCount, List.size_toArray, List.getElem?_toArray,
    List.count_toArray]
  induction flags using List.reverseRecOn with
  | nil => simp
  | append_singleton flags last ih =>
    rw [List.length_append, List.length_singleton, List.range_succ, List.filter_append,
      List.length_append, List.count_append, ← ih]
    congr 1
    · congr 1
      apply List.filter_congr
      intro i hi
      rw [List.getElem?_append_left (List.mem_range.mp hi)]
    · cases flag <;> cases last <;> simp

/-- The free sectors and the used ones are all there are. -/
theorem freeCount_add_length {map : FreeMap} {used : List Nat} (nodup : used.Nodup)
    (h : ∀ s, map.Uses s ↔ s ∈ used) : map.freeCount + used.length = map.sectorCount := by
  have apart : (map.sectorsWhere false ++ used).Nodup := by
    rw [List.nodup_append]
    refine ⟨map.nodup_sectorsWhere false, nodup, ?_⟩
    rintro s hs t ht rfl
    exact (mem_sectorsWhere_false.mp hs).2 ((h s).mpr ht)
  have all : (map.sectorsWhere false ++ used).Perm (List.range map.sectorCount) := by
    rw [List.perm_ext_iff_of_nodup apart List.nodup_range]
    intro s
    rw [List.mem_append, mem_sectorsWhere_false, ← h, List.mem_range]
    constructor
    · rintro (⟨hs, -⟩ | hs)
      · exact hs
      · exact hs.lt
    · intro hs
      by_cases hu : map.Uses s
      · exact .inr hu
      · exact .inl ⟨hs, hu⟩
  rw [freeCount, ← length_sectorsWhere, ← List.length_append, all.length_eq, List.length_range]

theorem mem_usedSectors {map : FreeMap} {s : Nat} : s ∈ map.usedSectors ↔ map.Uses s := by
  simp only [usedSectors, sectorsWhere, List.mem_filter, List.mem_range, decide_eq_true_eq]
  exact ⟨And.right, fun h => ⟨h.lt, h⟩⟩

/-- Free sectors that come into use are counted no more. -/
theorem freeCount_add_length_of_uses {map map' : FreeMap} {taken : List Nat}
    (size : map'.sectorCount = map.sectorCount) (nodup : taken.Nodup)
    (free : ∀ s ∈ taken, ¬ map.Uses s) (uses : ∀ s, map'.Uses s ↔ s ∈ taken ∨ map.Uses s) :
    map'.freeCount + taken.length = map.freeCount := by
  have before := freeCount_add_length (map.nodup_sectorsWhere true) fun s => mem_usedSectors.symm
  have apart : (taken ++ map.usedSectors).Nodup := by
    rw [List.nodup_append]
    refine ⟨nodup, map.nodup_sectorsWhere true, ?_⟩
    rintro s hs t ht rfl
    exact free s hs (mem_usedSectors.mp ht)
  have all : ∀ s, map'.Uses s ↔ s ∈ taken ++ map.usedSectors := by
    intro s
    rw [uses, List.mem_append, mem_usedSectors]
  have after := freeCount_add_length apart all
  rw [List.length_append] at after
  change _ + map.usedSectors.length = _ at before
  omega

theorem claim?_eq_none_iff {map : FreeMap} :
    map.claim? = none ↔ ∀ s, s < map.sectorCount → map.Uses s := by
  have : map.claim? = none ↔ map.used.findIdx? (!·) = none := by
    cases h : map.used.findIdx? (!·) <;> simp [claim?, h]
  rw [this, Array.findIdx?_eq_none_iff]
  constructor
  · intro h s hs
    have := h map.used[s] (Array.getElem_mem hs)
    simpa [Uses, Array.getElem?_eq_getElem hs] using this
  · intro h flag hflag
    obtain ⟨s, hs, rfl⟩ := Array.mem_iff_getElem.mp hflag
    have := h s hs
    rw [Uses, Array.getElem?_eq_getElem hs, Option.some.injEq] at this
    simp [this]

/-- A claimed sector was the lowest free one, and is used from now on. -/
theorem claim?_eq_some {map map' : FreeMap} {s : Nat} (h : map.claim? = some (s, map')) :
    s < map.sectorCount ∧ ¬ map.Uses s ∧ (∀ t, t < s → map.Uses t) ∧ map' = map.mark s true := by
  cases hf : map.used.findIdx? (!·) with
  | none => simp [claim?, hf] at h
  | some i =>
    obtain ⟨rfl, rfl⟩ : i = s ∧ map.mark i true = map' := by
      simpa [claim?, hf] using h
    obtain ⟨hi, free, least⟩ := Array.findIdx?_eq_some_iff_getElem.mp hf
    refine ⟨hi, ?_, fun t ht => ?_, rfl⟩
    · simpa [Uses, Array.getElem?_eq_getElem hi] using free
    · have ht' : t < map.used.size := Nat.lt_trans ht hi
      simpa [Uses, Array.getElem?_eq_getElem ht'] using least t ht

/-- There is a sector to claim as long as one is free. -/
theorem claim?_eq_none_iff_freeCount {map : FreeMap} : map.claim? = none ↔ map.freeCount = 0 := by
  rw [claim?_eq_none_iff, freeCount, ← length_sectorsWhere, List.length_eq_zero_iff,
    List.eq_nil_iff_forall_not_mem]
  apply forall_congr'
  intro s
  rw [mem_sectorsWhere_false, not_and, not_not]

/-- A sector that is claimed is free no more. -/
theorem freeCount_claimed {map map' : FreeMap} {s : Nat} (h : map.claim? = some (s, map')) :
    map'.freeCount + 1 = map.freeCount := by
  obtain ⟨lt, free, -, rfl⟩ := claim?_eq_some h
  have one : ∀ t ∈ [s], ¬ map.Uses t := by simpa using free
  apply freeCount_add_length_of_uses (sectorCount_mark ..) (by simp) one
  simpa using uses_mark_true lt

theorem sectorCount_foldl_mark (sectors : List Nat) (flag : Bool) (map : FreeMap) :
    (sectors.foldl (·.mark · flag) map).sectorCount = map.sectorCount := by
  induction sectors generalizing map with
  | nil => rfl
  | cons s sectors ih => rw [List.foldl_cons, ih, sectorCount_mark]

theorem uses_foldl_mark_true {sectors : List Nat} {map : FreeMap}
    (h : ∀ s ∈ sectors, s < map.sectorCount) (t : Nat) :
    (sectors.foldl (·.mark · true) map).Uses t ↔ t ∈ sectors ∨ map.Uses t := by
  induction sectors generalizing map with
  | nil => simp
  | cons s sectors ih =>
    have hs := h s List.mem_cons_self
    rw [List.foldl_cons, ih fun t ht => by simpa using h t (List.mem_cons_of_mem _ ht),
      uses_mark_true hs, List.mem_cons, or_assoc]
    exact or_left_comm

/-! ## The lowest free sectors -/

/-- The map with its `count` lowest free sectors in use. -/
def fill (map : FreeMap) (count : Nat) : FreeMap :=
  ((map.sectorsWhere false).take count).foldl (·.mark · true) map

@[simp] theorem fill_zero (map : FreeMap) : map.fill 0 = map := by
  simp [fill]

theorem mem_take_free {map : FreeMap} {count : Nat} {s : Nat}
    (h : s ∈ (map.sectorsWhere false).take count) : s < map.sectorCount ∧ ¬ map.Uses s :=
  mem_sectorsWhere_false.mp (List.mem_of_mem_take h)

@[simp] theorem sectorCount_fill (map : FreeMap) (count : Nat) :
    (map.fill count).sectorCount = map.sectorCount :=
  sectorCount_foldl_mark ..

theorem uses_fill (map : FreeMap) (count s : Nat) :
    (map.fill count).Uses s ↔ s ∈ (map.sectorsWhere false).take count ∨ map.Uses s :=
  uses_foldl_mark_true (fun _ h => (mem_take_free h).1) s

theorem pairwise_sectorsWhere (map : FreeMap) (flag : Bool) :
    (map.sectorsWhere flag).Pairwise (· < ·) :=
  List.pairwise_lt_range.filter _

/-- What is left free are all free sectors but the lowest. -/
theorem sectorsWhere_fill (map : FreeMap) (count : Nat) :
    (map.fill count).sectorsWhere false = (map.sectorsWhere false).drop count := by
  have ascending := map.pairwise_sectorsWhere false
  apply List.Pairwise.eq_of_mem_iff (pairwise_sectorsWhere _ _) ascending.drop
  intro s
  have split := List.take_append_drop count (map.sectorsWhere false)
  have apart := List.nodup_append.mp (split ▸ map.nodup_sectorsWhere false)
  have free : s ∈ map.sectorsWhere false ↔
      s ∈ (map.sectorsWhere false).take count ∨ s ∈ (map.sectorsWhere false).drop count := by
    rw [← List.mem_append, split]
  rw [mem_sectorsWhere_false, uses_fill, sectorCount_fill]
  constructor
  · intro ⟨inside, unused⟩
    rw [not_or] at unused
    exact (free.mp (mem_sectorsWhere_false.mpr ⟨inside, unused.2⟩)).resolve_left unused.1
  · intro left
    obtain ⟨inside, unused⟩ := mem_sectorsWhere_false.mp (List.mem_of_mem_drop left)
    refine ⟨inside, ?_⟩
    rintro (taken | used)
    · exact apart.2.2 s taken s left rfl
    · exact unused used

/-- `taken` are the lowest free sectors of `map`, ascending, and `map'` has them in use besides. -/
structure Takes (map : FreeMap) (taken : List Nat) (map' : FreeMap) : Prop where
  sectorCount_eq : map'.sectorCount = map.sectorCount
  ascending : taken.Pairwise (· < ·)
  free : ∀ s ∈ taken, s < map.sectorCount ∧ ¬ map.Uses s
  lowest : ∀ s ∈ taken, ∀ t, t < s → map'.Uses t
  uses : ∀ s, map'.Uses s ↔ s ∈ taken ∨ map.Uses s

theorem takes_fill (map : FreeMap) (count : Nat) :
    map.Takes ((map.sectorsWhere false).take count) (map.fill count) where
  sectorCount_eq := map.sectorCount_fill count
  ascending := (map.pairwise_sectorsWhere false).take
  free _ hs := mem_take_free hs
  lowest s hs t lt := by
    have inside := (mem_take_free hs).1
    by_contra unused
    have left : t ∈ (map.fill count).sectorsWhere false := by
      rw [mem_sectorsWhere_false, sectorCount_fill]
      exact ⟨by omega, unused⟩
    rw [sectorsWhere_fill] at left
    have ascending := map.pairwise_sectorsWhere false
    rw [← List.take_append_drop count (map.sectorsWhere false), List.pairwise_append] at ascending
    have := ascending.2.2 s hs t left
    omega
  uses := map.uses_fill count

theorem Takes.nodup {map map' : FreeMap} {taken : List Nat} (h : map.Takes taken map') :
    taken.Nodup :=
  h.ascending.imp Nat.ne_of_lt

/-- Claiming many sectors fails exactly when there are too few free ones. -/
theorem claimMany?_of_le {map : FreeMap} {count : Nat} (h : count ≤ map.freeCount) :
    map.claimMany? count = some ((map.sectorsWhere false).take count, map.fill count) := by
  have : ((map.sectorsWhere false).take count).length = count := by
    rw [List.length_take, length_sectorsWhere]
    exact Nat.min_eq_left h
  rw [claimMany?, if_pos this]
  rfl

/-! ## Full maps -/

/-- Exactly the sectors below `k` are used. -/
def FullBelow (map : FreeMap) (k : Nat) : Prop := ∀ s, map.Uses s ↔ s < k

namespace FullBelow

variable {map : FreeMap} {k : Nat} (full : map.FullBelow k)
include full

theorem le : k ≤ map.sectorCount := by
  cases k with
  | zero => exact Nat.zero_le _
  | succ k => exact ((full k).mpr (Nat.lt_succ_self k)).lt

/-- The free sectors are all those from there on. -/
theorem sectorsWhere_false :
    map.sectorsWhere false = List.range' k (map.sectorCount - k) := by
  have split : List.range map.sectorCount =
      List.range k ++ List.range' k (map.sectorCount - k) := by
    rw [List.range_eq_range', List.range_eq_range']
    have := List.range'_append_1 (s := 0) (m := k) (n := map.sectorCount - k)
    rw [Nat.zero_add, Nat.add_sub_cancel' full.le] at this
    exact this.symm
  have free (s : Nat) : map.used[s]? = some false ↔ s < map.sectorCount ∧ k ≤ s := by
    rw [getElem?_eq_some_false_iff, full, Nat.not_lt]
  rw [sectorsWhere, split, List.filter_append, List.filter_eq_nil_iff.mpr, List.nil_append,
    List.filter_eq_self]
  · intro s hs
    obtain ⟨i, hi, rfl⟩ := List.mem_range'.mp hs
    rw [decide_eq_true_eq, free]
    omega
  · intro s hs
    rw [decide_eq_true_eq, free]
    have := List.mem_range.mp hs
    omega

theorem freeCount_eq : map.freeCount = map.sectorCount - k := by
  rw [freeCount, ← length_sectorsWhere, full.sectorsWhere_false, List.length_range']

end FullBelow

/-! ## Releasing -/

theorem release_of_uses {map : FreeMap} {s : Nat} (h : map.Uses s) :
    map.release s = .ok (map.mark s false) := by
  rw [release, isUsed_of_lt h.lt, decide_eq_true h]
  rfl

/-- Distinct used sectors can all be given back, and nothing else is. -/
theorem foldlM_release {sectors : List Nat} {map : FreeMap} (nodup : sectors.Nodup)
    (h : ∀ s ∈ sectors, map.Uses s) :
    ∃ map', sectors.foldlM release map = .ok map' ∧ map'.sectorCount = map.sectorCount ∧
      ∀ t, map'.Uses t ↔ t ∉ sectors ∧ map.Uses t := by
  induction sectors generalizing map with
  | nil => exact ⟨map, rfl, rfl, by simp⟩
  | cons s sectors ih =>
    obtain ⟨fresh, nodup⟩ := List.nodup_cons.mp nodup
    have rest : ∀ t ∈ sectors, (map.mark s false).Uses t := fun t ht =>
      (uses_mark_false t).mpr ⟨fun e => fresh (e ▸ ht), h t (List.mem_cons_of_mem _ ht)⟩
    obtain ⟨map', run, size, uses⟩ := ih nodup rest
    refine ⟨map', ?_, size.trans (sectorCount_mark ..), fun t => ?_⟩
    · rw [List.foldlM_cons, release_of_uses (h s List.mem_cons_self)]
      exact run
    · rw [uses, uses_mark_false, List.mem_cons, not_or, and_assoc]
      exact and_left_comm

end SectorFS.FreeMap
