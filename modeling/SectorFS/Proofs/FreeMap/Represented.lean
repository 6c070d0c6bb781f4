import Mathlib.Data.Finset.Sort
import SectorFS.Proofs.FreeMap.Claims
import SectorFS.Proofs.FreeMap.Packed
import SectorFS.Proofs.FreeMap.Stored

/-!
# Free maps in words as sets of sectors

`PackedMap.Represents` says that a set of sectors has its bits set and no other bit is, so the set
determines the words. `PackedMap.Represents.serves` says what each operation answers and which set
the map stands for then. Spare bits are clear, and that is why the search for a clear bit finds the
map full when it is. `PackedMap.Mirrors` compares with the flags of `FreeMap`: in words each
operation does the same.
-/

namespace SectorFS

namespace PackedMap

/-! ## Counting -/

theorem cpopNatRec_eq_countP (word : BitVec 64) (count : Nat) :
    word.cpopNatRec count 0 = (List.range count).countP word.getLsbD := by
  induction count with
  | zero => rfl
  | succ count ih =>
    rw [BitVec.cpopNatRec_succ, BitVec.cpopNatRec_add, ih, List.range_succ, List.countP_append,
      List.countP_singleton]
    cases word.getLsbD count <;> simp

/-- The set bits, counted word by word. -/
theorem foldr_cpop (words : List (BitVec 64)) :
    words.foldr (fun word used => word.cpop.toNat + used) 0 =
      (List.range (64 * words.length)).countP fun i =>
        (words.getD (i / 64) 0).getLsbD (i % 64) := by
  induction words with
  | nil => rfl
  | cons word words ih =>
    rw [List.foldr_cons, ih, BitVec.toNat_cpop, cpopNatRec_eq_countP,
      List.length_cons, Nat.mul_succ, Nat.add_comm (64 * words.length), List.range_add,
      List.countP_append, List.countP_map]
    refine congrArg₂ (· + ·) (List.countP_congr fun i hi => ?_) (List.countP_congr fun i _ => ?_)
    · have inside := List.mem_range.mp hi
      have place : i / 64 = 0 ∧ i % 64 = i := by omega
      rw [place.1, place.2, List.getD_cons_zero]
    · have place : (64 + i) / 64 = i / 64 + 1 ∧ (64 + i) % 64 = i % 64 := by omega
      simp only [Function.comp, place.1, place.2, List.getD_cons_succ]

theorem usedSectors_eq (map : PackedMap) :
    map.usedSectors = (List.range map.sectorCount).filter map.bit := by
  apply List.filter_congr
  intro s hs
  rw [isUsed_of_lt (List.mem_range.mp hs)]
  simp [Except.toOption]

/-! ## Sets -/

/-- The map has `n` sectors and the bits of `used` set. No spare bit is. -/
structure Represents (map : PackedMap) (n : Nat) (used : Finset Nat) : Prop where
  sectorCount_eq : map.sectorCount = n
  below : ∀ s ∈ used, s < n
  bit_eq : ∀ i, map.bit i = decide (i ∈ used)

/-- What the operations answer, and what they make of a map of `n` sectors with `used` in use. -/
structure Serves (map : PackedMap) (n : Nat) (used : Finset Nat) : Prop where
  isUsed : ∀ s, s < n → map.isUsed s = .ok (decide (s ∈ used))
  isUsed_outside : ∀ s, n ≤ s → map.isUsed s = .error (.fault (.outsideMap s))
  reserve : ∀ s, s < n → ∃ map', map.reserve s = .ok map' ∧ map'.Represents n (insert s used)
  reserve_outside : ∀ s, n ≤ s → map.reserve s = .error (.fault (.outsideMap s))
  release : ∀ s ∈ used, ∃ map', map.release s = .ok map' ∧ map'.Represents n (used.erase s)
  release_free : ∀ s, s < n → s ∉ used → map.release s = .error (.fault (.alreadyFree s))
  release_outside : ∀ s, n ≤ s → map.release s = .error (.fault (.outsideMap s))
  claim_eq_some_iff : ∀ s, map.claim.1 = some s ↔ s < n ∧ s ∉ used ∧ ∀ t, t < s → t ∈ used
  claimed : ∀ s, map.claim.1 = some s → map.claim.2.Represents n (insert s used)
  claim_eq_none_iff : map.claim.1 = none ↔ used = .range n
  unclaimed : map.claim.1 = none → map.claim.2 = map
  card_le : used.card ≤ n
  freeCount : map.freeCount? = some (n - used.card)
  usedSectors : map.usedSectors = used.sort

namespace Represents

variable {map map' : PackedMap} {n : Nat} {used : Finset Nat}

/-- The set tells all of the map. -/
theorem unique (h : map.Represents n used) (h' : map'.Represents n used) : map = map' :=
  ext_bit (h.sectorCount_eq.trans h'.sectorCount_eq.symm) fun i => by rw [h.bit_eq, h'.bit_eq]

theorem spare_clear (h : map.Represents n used) {i : Nat} (outside : n ≤ i) :
    map.bit i = false := by
  rw [h.bit_eq]
  exact decide_eq_false (mt (h.below i) (Nat.not_lt.mpr outside))

theorem subset_range (h : map.Represents n used) : used ⊆ .range n := fun s hs =>
  Finset.mem_range.mpr (h.below s hs)

theorem set (h : map.Represents n used) {s : Nat} (hs : s < map.sectorCount) :
    (map.update s hs (· ||| .twoPow 64 (s % 64))).Represents n (insert s used) where
  sectorCount_eq := h.sectorCount_eq
  below t ht := by
    have hs := h.sectorCount_eq ▸ hs
    rcases Finset.mem_insert.mp ht with rfl | ht
    · exact hs
    · exact h.below t ht
  bit_eq i := by
    rw [bit_set, h.bit_eq]
    by_cases same : i = s <;> simp [same]

theorem clear (h : map.Represents n used) {s : Nat} (hs : s < map.sectorCount) :
    (map.update s hs (· &&& ~~~.twoPow 64 (s % 64))).Represents n (used.erase s) where
  sectorCount_eq := h.sectorCount_eq
  below t ht := h.below t (Finset.mem_of_mem_erase ht)
  bit_eq i := by
    rw [bit_clear, h.bit_eq]
    by_cases same : i = s <;> simp [same]

theorem card_le (h : map.Represents n used) : used.card ≤ n := by
  simpa using Finset.card_le_card h.subset_range

theorem toFinset_filter_bit (h : map.Represents n used) {count : Nat} (enough : n ≤ count) :
    ((List.range count).filter map.bit).toFinset = used := by
  ext i
  simp only [List.mem_toFinset, List.mem_filter, List.mem_range, h.bit_eq, decide_eq_true_eq]
  exact ⟨And.right, fun hi => ⟨Nat.lt_of_lt_of_le (h.below i hi) enough, hi⟩⟩

theorem foldr_cpop_eq (h : map.Represents n used) :
    map.words.toList.foldr (fun word used => word.cpop.toNat + used) 0 = used.card := by
  have bits : (fun i => (map.words.toList.getD (i / 64) 0).getLsbD (i % 64)) = map.bit := by
    funext i
    rw [bit, List.getD_eq_getElem?_getD, Vector.getElem?_toList]
  have enough : n ≤ 64 * map.words.toList.length := by
    have := Size.le_units_mul (show 0 < 64 by decide) map.sectorCount
    rw [Vector.length_toList, ← h.sectorCount_eq]
    omega
  rw [foldr_cpop, bits, List.countP_eq_length_filter, ← h.toFinset_filter_bit enough,
    List.toFinset_card_of_nodup (List.nodup_range.filter _)]

/-- A map is full when its bits are set up to some place behind the last sector. -/
theorem eq_range (h : map.Represents n used) (full : ∀ s, s < n → map.bit s = true) :
    used = .range n := by
  apply Finset.Subset.antisymm h.subset_range
  intro s hs
  have := full s (Finset.mem_range.mp hs)
  rwa [h.bit_eq, decide_eq_true_eq] at this

/-- Either there is nothing to claim, or the lowest sector that is not in use is claimed. -/
theorem claim_cases (h : map.Represents n used) :
    (used = .range n ∧ map.claim = (none, map)) ∨
      ∃ s map', map.claim = (some s, map') ∧ map'.Represents n (insert s used) ∧
        s < n ∧ s ∉ used ∧ ∀ t, t < s → t ∈ used := by
  cases first : map.firstClear? with
  | none =>
    refine .inl ⟨h.eq_range fun s hs => ?_, by rw [claim, first]⟩
    exact bit_of_firstClear?_eq_none first (h.sectorCount_eq ▸ hs)
  | some s =>
    obtain ⟨clear, before⟩ := firstClear?_eq_some first
    by_cases hs : s < map.sectorCount
    · have claimed : map.claim = (some s, map.update s hs (· ||| .twoPow 64 (s % 64))) := by
        rw [claim, first]
        exact dif_pos hs
      rw [h.bit_eq, decide_eq_false_iff_not] at clear
      refine .inr ⟨s, _, claimed, h.set hs, h.sectorCount_eq ▸ hs, clear, fun t ht => ?_⟩
      have := before t ht
      rwa [h.bit_eq, decide_eq_true_eq] at this
    -- The first clear bit is a spare one, so all sectors are in use.
    · have size := h.sectorCount_eq
      refine .inl ⟨h.eq_range fun t ht => before t (by omega), ?_⟩
      rw [claim, first]
      exact dif_neg hs

theorem serves (h : map.Represents n used) (few : n < 0x100000000) : map.Serves n used where
  isUsed s hs := by rw [isUsed_of_lt (h.sectorCount_eq.symm ▸ hs), h.bit_eq]
  isUsed_outside s hs := isUsed_of_le (h.sectorCount_eq.symm ▸ hs)
  reserve s hs := by
    have hs : s < map.sectorCount := h.sectorCount_eq.symm ▸ hs
    exact ⟨_, dif_pos hs, h.set hs⟩
  reserve_outside s hs := by
    have hs : map.sectorCount ≤ s := h.sectorCount_eq.symm ▸ hs
    exact dif_neg (Nat.not_lt.mpr hs)
  release s hs := by
    have inside : s < map.sectorCount := h.sectorCount_eq.symm ▸ h.below s hs
    refine ⟨_, ?_, h.clear inside⟩
    rw [PackedMap.release, isUsed_of_lt inside, h.bit_eq, decide_eq_true hs]
    exact dif_pos inside
  release_free s hs free := by
    have inside : s < map.sectorCount := h.sectorCount_eq.symm ▸ hs
    rw [PackedMap.release, isUsed_of_lt inside, h.bit_eq, decide_eq_false free]
    rfl
  release_outside s hs := by
    rw [PackedMap.release, isUsed_of_le (h.sectorCount_eq.symm ▸ hs)]
    rfl
  claim_eq_some_iff s := by
    rcases h.claim_cases with ⟨rfl, none⟩ | ⟨lowest, map', some, -, hs, free, before⟩
    · simp [none]
      omega
    · rw [some, Option.some.injEq]
      constructor
      · rintro rfl
        exact ⟨hs, free, before⟩
      · rintro ⟨hs', free', before'⟩
        rcases Nat.lt_trichotomy lowest s with lt | eq | gt
        · exact absurd (before' _ lt) free
        · exact eq
        · exact absurd (before _ gt) free'
  claimed s hs := by
    rcases h.claim_cases with ⟨-, none⟩ | ⟨lowest, map', some, represents, -⟩
    · simp [none] at hs
    · rw [some] at hs ⊢
      cases hs
      exact represents
  claim_eq_none_iff := by
    rcases h.claim_cases with ⟨full, none⟩ | ⟨lowest, map', some, -, hs, free, -⟩
    · simp [full, none]
    · rw [some]
      constructor
      · simp
      · rintro rfl
        exact absurd (Finset.mem_range.mpr hs) free
  unclaimed := by
    rcases h.claim_cases with ⟨-, none⟩ | ⟨lowest, map', some, -⟩
    · simp [none]
    · simp [some]
  card_le := h.card_le
  freeCount := by
    have le := h.card_le
    rw [freeCount?, h.foldr_cpop_eq, h.sectorCount_eq]
    exact if_pos ⟨by omega, le⟩
  usedSectors := by
    have ascending : ((List.range n).filter map.bit).Pairwise (· ≤ ·) :=
      (List.pairwise_lt_range.imp Nat.le_of_lt).filter _
    rw [usedSectors_eq, h.sectorCount_eq, ← h.toFinset_filter_bit (Nat.le_refl n)]
    exact ((List.toFinset_sort (· ≤ ·) (List.nodup_range.filter _)).mpr ascending).symm

end Represents

end PackedMap

/-! ## Words and flags -/

namespace FreeMap

/-- The flags in words. -/
def packed (flags : FreeMap) : PackedMap where
  sectorCount := flags.sectorCount
  words := .ofFn fun j =>
    .ofNat 64 (packBits (fun k => flags.used.getD (64 * j + k) false) (List.range' 0 64))

/-- The used sectors as a set. -/
def usedSet (flags : FreeMap) : Finset Nat := flags.usedSectors.toFinset

theorem isUsed_of_le {flags : FreeMap} {s : Nat} (h : flags.sectorCount ≤ s) :
    flags.isUsed s = .error (.fault (.outsideMap s)) := by
  rw [isUsed, Array.getElem?_eq_none h]

theorem mem_usedSet {flags : FreeMap} {s : Nat} : s ∈ flags.usedSet ↔ flags.Uses s := by
  rw [usedSet, List.mem_toFinset, mem_usedSectors]

theorem usedSet_mark_true {flags : FreeMap} {s : Nat} (h : s < flags.sectorCount) :
    (flags.mark s true).usedSet = insert s flags.usedSet := by
  ext t
  simp [mem_usedSet, uses_mark_true h]

theorem usedSet_mark_false (flags : FreeMap) (s : Nat) :
    (flags.mark s false).usedSet = flags.usedSet.erase s := by
  ext t
  simp [mem_usedSet, uses_mark_false]

theorem decide_uses (flags : FreeMap) (i : Nat) :
    decide (flags.Uses i) = flags.used.getD i false := by
  rw [Array.getD_eq_getD_getElem?, Bool.eq_iff_iff, decide_eq_true_eq, Uses]
  cases flags.used[i]? <;> simp

theorem bit_packed (flags : FreeMap) (i : Nat) : flags.packed.bit i = decide (flags.Uses i) := by
  by_cases there : i / 64 < Size.units flags.sectorCount 64
  · have inside := Nat.mod_lt i (show 0 < 64 by decide)
    have word : flags.packed.words[i / 64] = .ofNat 64
        (packBits (fun k => flags.used.getD (64 * (i / 64) + k) false) (List.range' 0 64)) :=
      Vector.getElem_ofFn there
    rw [PackedMap.bit_eq_getLsbD there, word, BitVec.getLsbD_ofNat, decide_eq_true inside,
      Bool.true_and, testBit_packBits _ 0 64 _ inside, Nat.zero_add, Nat.div_add_mod, decide_uses]
  · have outside : ¬ flags.Uses i := by
      intro used
      exact there (PackedMap.word_lt used.lt)
    rw [PackedMap.bit_of_le (Nat.le_of_not_lt there), decide_eq_false outside]

theorem represents_packed (flags : FreeMap) :
    flags.packed.Represents flags.sectorCount flags.usedSet where
  sectorCount_eq := rfl
  below _ hs := (mem_usedSet.mp hs).lt
  bit_eq i := by rw [bit_packed, decide_eq_decide.mpr mem_usedSet]

end FreeMap

namespace PackedMap

open FreeMap (mem_usedSet)

variable {map : PackedMap} {flags : FreeMap} {n : Nat} {used : Finset Nat}

/-- Words that stand for the used sectors are the flags in words. -/
theorem Represents.eq_packed (h : map.Represents n used) (size : flags.sectorCount = n)
    (same : flags.usedSet = used) : map = flags.packed :=
  h.unique (size ▸ same ▸ flags.represents_packed)

/-- In words each operation does what it does with the flags. -/
structure Mirrors (map : PackedMap) (flags : FreeMap) : Prop where
  isUsed : ∀ s, map.isUsed s = flags.isUsed s
  reserve : ∀ s, map.reserve s = (flags.reserve s).map FreeMap.packed
  release : ∀ s, map.release s = (flags.release s).map FreeMap.packed
  claim_of_some : ∀ s flags', flags.claim? = some (s, flags') →
    map.claim = (some s, flags'.packed)
  claim_of_none : flags.claim? = none → map.claim = (none, map)
  freeCount : map.freeCount? = some flags.freeCount
  usedSectors : map.usedSectors = flags.usedSectors

theorem mirrors_packed (flags : FreeMap) (few : flags.sectorCount < 0x100000000) :
    flags.packed.Mirrors flags := by
  have serves := flags.represents_packed.serves few
  constructor
  case isUsed =>
    intro s
    by_cases hs : s < flags.sectorCount
    · rw [serves.isUsed s hs, FreeMap.isUsed_of_lt hs, decide_eq_decide.mpr mem_usedSet]
    · have hs := Nat.le_of_not_lt hs
      rw [serves.isUsed_outside s hs, FreeMap.isUsed_of_le hs]
  case reserve =>
    intro s
    by_cases hs : s < flags.sectorCount
    · obtain ⟨map', run, represents⟩ := serves.reserve s hs
      rw [run, FreeMap.reserve, if_pos hs, represents.eq_packed
        (FreeMap.sectorCount_mark ..) (FreeMap.usedSet_mark_true hs)]
      rfl
    · rw [serves.reserve_outside s (Nat.le_of_not_lt hs), FreeMap.reserve, if_neg hs]
      rfl
  case release =>
    intro s
    by_cases used : flags.Uses s
    · obtain ⟨map', run, represents⟩ := serves.release s (mem_usedSet.mpr used)
      rw [run, FreeMap.release_of_uses used, represents.eq_packed
        (FreeMap.sectorCount_mark ..) (FreeMap.usedSet_mark_false flags s)]
      rfl
    by_cases hs : s < flags.sectorCount
    · rw [serves.release_free s hs (mt mem_usedSet.mp used), FreeMap.release,
        FreeMap.isUsed_of_lt hs, decide_eq_false used]
      rfl
    · have hs := Nat.le_of_not_lt hs
      rw [serves.release_outside s hs, FreeMap.release, FreeMap.isUsed_of_le hs]
      rfl
  case claim_of_some =>
    intro s flags' claimed
    obtain ⟨hs, free, before, rfl⟩ := FreeMap.claim?_eq_some claimed
    have first : flags.packed.claim.1 = some s := (serves.claim_eq_some_iff s).mpr
      ⟨hs, mt mem_usedSet.mp free, fun t ht => mem_usedSet.mpr (before t ht)⟩
    have after := (serves.claimed s first).eq_packed
      (FreeMap.sectorCount_mark ..) (FreeMap.usedSet_mark_true hs)
    exact Prod.ext first after
  case claim_of_none =>
    intro full
    have all : flags.usedSet = .range flags.sectorCount := by
      ext s
      rw [mem_usedSet, Finset.mem_range]
      exact ⟨FreeMap.Uses.lt, FreeMap.claim?_eq_none_iff.mp full s⟩
    have none := serves.claim_eq_none_iff.mpr all
    exact Prod.ext none (serves.unclaimed none)
  case freeCount =>
    have count := FreeMap.freeCount_add_length (flags.nodup_sectorsWhere true)
      fun s => FreeMap.mem_usedSectors.symm
    have card : flags.usedSet.card = flags.usedSectors.length :=
      List.toFinset_card_of_nodup (flags.nodup_sectorsWhere true)
    rw [serves.freeCount, card]
    change _ + flags.usedSectors.length = _ at count
    congr 1
    omega
  case usedSectors =>
    rw [serves.usedSectors]
    exact (List.toFinset_sort (· ≤ ·) (flags.nodup_sectorsWhere true)).mpr
      ((flags.pairwise_sectorsWhere true).imp Nat.le_of_lt)

/-- Whatever words stand for is a free map. -/
theorem Represents.exists_flags (h : map.Represents n used) :
    ∃ flags : FreeMap, flags.sectorCount = n ∧ flags.usedSet = used ∧ map = flags.packed := by
  let flags : FreeMap := ⟨.ofFn fun s : Fin n => decide (s.val ∈ used)⟩
  have size : flags.sectorCount = n := Array.size_ofFn
  have same : flags.usedSet = used := by
    ext s
    by_cases hs : s < n
    · simp [FreeMap.mem_usedSet, FreeMap.Uses, flags, hs]
    · simp [FreeMap.mem_usedSet, FreeMap.Uses, flags, hs, mt (h.below s) hs]
  exact ⟨flags, size, same, h.eq_packed size same⟩

end PackedMap

end SectorFS
