import SectorFS.Proofs.File.Untrusted
import SectorFS.Proofs.FreeMap.Represented

/-!
# Words of a free map to bytes and back

Bytes, too, are a string of bits, with `FreeMap.marked` for each of them. The bytes of a map have
the bits of its set (`PackedMap.Represents.marked_toBytes`), and any bytes that are enough are read
as the set of their marked sectors (`PackedMap.exists_ofBytes`). So storing what was read gives the
bytes back, cut off behind the last sector (`PackedMap.toBytes_ofBytes`).
-/

namespace SectorFS

namespace FreeMap

theorem marked_of_le {bytes : List UInt8} {i : Nat} (h : 8 * bytes.length ≤ i) :
    marked bytes i = false := by
  simp [marked, show ¬ i / 8 < bytes.length by omega]

theorem marked_append_left {bytes rest : List UInt8} {i : Nat} (h : i < 8 * bytes.length) :
    marked (bytes ++ rest) i = marked bytes i := by
  rw [marked, marked, List.getElem?_append_left (by omega)]

theorem marked_append_right (bytes rest : List UInt8) (i : Nat) :
    marked (bytes ++ rest) (8 * bytes.length + i) = marked rest i := by
  have place : (8 * bytes.length + i) / 8 = bytes.length + i / 8 ∧
    (8 * bytes.length + i) % 8 = i % 8 := by omega
  rw [marked, marked, place.1, place.2, List.getElem?_append_right (by omega),
    Nat.add_sub_cancel_left]

/-- The bits of some of the bytes, from byte `8 * j` on. -/
theorem marked_slice {bytes : List UInt8} {j count k : Nat} (h : k / 8 < count) :
    marked ((bytes.drop (8 * j)).take count) k = marked bytes (64 * j + k) := by
  have place : (64 * j + k) / 8 = 8 * j + k / 8 ∧ (64 * j + k) % 8 = k % 8 := by omega
  rw [marked, marked, place.1, place.2, List.getElem?_take_of_lt h, List.getElem?_drop]

theorem ext_marked {bytes bytes' : List UInt8} (length : bytes.length = bytes'.length)
    (h : ∀ i, marked bytes i = marked bytes' i) : bytes = bytes' := by
  apply List.ext_getElem length
  intro j hj hj'
  rw [← UInt8.toNat_inj]
  apply Nat.eq_of_testBit_eq
  intro k
  by_cases hk : k < 8
  · have place : (8 * j + k) / 8 = j ∧ (8 * j + k) % 8 = k := by omega
    have same := h (8 * j + k)
    simpa [marked, place, hj, hj'] using same
  · have large : 2 ^ 8 ≤ 2 ^ k := Nat.pow_le_pow_right (by decide) (Nat.le_of_not_lt hk)
    rw [Nat.testBit_lt_two_pow (Nat.lt_of_lt_of_le bytes[j].toNat_lt large),
      Nat.testBit_lt_two_pow (Nat.lt_of_lt_of_le bytes'[j].toNat_lt large)]

/-- The marked sectors of `n`. -/
def markedSet (n : Nat) (bytes : List UInt8) : Finset Nat :=
  (Finset.range n).filter fun s => marked bytes s = true

theorem mem_markedSet {n : Nat} {bytes : List UInt8} {s : Nat} :
    s ∈ markedSet n bytes ↔ s < n ∧ marked bytes s = true := by
  simp [markedSet]

/-- The bytes that hold the flags of `n` sectors, with all other bits cleared. -/
def trimmed (n : Nat) (bytes : List UInt8) : List UInt8 :=
  (bytes.take (Size.units n 8)).mapIdx fun j b =>
    if j = n / 8 then b &&& .ofNat (2 ^ (n % 8) - 1) else b

theorem length_trimmed {n : Nat} {bytes : List UInt8} (enough : Size.units n 8 ≤ bytes.length) :
    (trimmed n bytes).length = Size.units n 8 := by
  rw [trimmed, List.length_mapIdx, List.length_take, Nat.min_eq_left enough]

theorem marked_trimmed {n : Nat} {bytes : List UInt8} (enough : Size.units n 8 ≤ bytes.length)
    (i : Nat) : marked (trimmed n bytes) i = (decide (i < n) && marked bytes i) := by
  by_cases there : i / 8 < Size.units n 8
  · have byte : (trimmed n bytes)[i / 8]? = some (if i / 8 = n / 8 then
        bytes[i / 8] &&& .ofNat (2 ^ (n % 8) - 1) else bytes[i / 8]) := by
      have held : bytes[i / 8]? = some bytes[i / 8] := List.getElem?_eq_getElem (by omega)
      rw [trimmed, List.getElem?_mapIdx, List.getElem?_take_of_lt there, held]
      rfl
    have plain : marked bytes i = bytes[i / 8].toNat.testBit (i % 8) := by
      rw [marked, List.getElem?_eq_getElem (by omega)]
      rfl
    rw [marked, byte, plain, Option.getD_some]
    split
    · have small : 2 ^ (n % 8) - 1 < 256 := by
        have : 2 ^ (n % 8) ≤ 2 ^ 8 :=
          Nat.pow_le_pow_right (by decide) (Nat.le_of_lt (Nat.mod_lt n (by decide)))
        omega
      have place : i % 8 < n % 8 ↔ i < n := by omega
      rw [UInt8.toNat_and, UInt8.toNat_ofNat', Nat.mod_eq_of_lt small, Nat.testBit_and,
        Nat.testBit_two_pow_sub_one, Bool.and_comm, decide_eq_decide.mpr place]
    · have place : i < n := by
        rw [Size.lt_units_iff (by decide)] at there
        omega
      rw [decide_eq_true place, Bool.true_and]
  · have outside : ¬ i < n := by
      rw [Size.lt_units_iff (by decide)] at there
      omega
    rw [marked_of_le (by rw [length_trimmed enough]; omega), decide_eq_false outside,
      Bool.false_and]

end FreeMap

namespace PackedMap

open FreeMap (marked marked_append_left marked_append_right marked_slice ext_marked markedSet
  mem_markedSet trimmed length_trimmed marked_trimmed)

variable {map : PackedMap} {n : Nat} {used : Finset Nat} {bytes : List UInt8}

/-! ## From bytes -/

theorem testBit_spelled (bytes : List UInt8) (i : Nat) :
    (spelled bytes).testBit i = marked bytes i := by
  induction bytes generalizing i with
  | nil => simp [spelled, marked]
  | cons b bytes ih =>
    have low : b.toNat < 2 ^ 8 := b.toNat_lt
    rw [spelled, Nat.add_comm, show 0x100 = 2 ^ 8 from rfl, Nat.testBit_two_pow_mul_add _ low]
    split
    case isTrue first =>
      have place : i / 8 = 0 ∧ i % 8 = i := by omega
      simp [marked, place]
    case isFalse later =>
      have place : i / 8 = (i - 8) / 8 + 1 ∧ i % 8 = (i - 8) % 8 := by omega
      rw [ih, marked, marked, place.1, place.2, List.getElem?_cons_succ]

theorem new_of_lt (small : n + 64 < Size.limit) : PackedMap.new n = .ok ⟨n, .replicate _ 0⟩ := by
  rw [PackedMap.new, FreeMap.checkCount_of_lt small]
  rfl

theorem represents_blank (n : Nat) : Represents ⟨n, .replicate _ 0⟩ n ∅ where
  sectorCount_eq := rfl
  below s hs := absurd hs (Finset.notMem_empty s)
  bit_eq i := by
    by_cases there : i / 64 < Size.units n 64
    · rw [bit_eq_getLsbD there, Vector.getElem_replicate]
      simp
    · rw [bit_of_le (Nat.le_of_not_lt there)]
      simp

/-- Any bytes that are enough are read, and the sectors that they mark are used. -/
theorem exists_ofBytes (enough : Size.units n 8 ≤ bytes.length) (small : n + 64 < Size.limit) :
    ∃ map, ofBytes n bytes = .ok map ∧ map.Represents n (markedSet n bytes) := by
  let blank : Vector (BitVec 64) (Size.units n 64) := .replicate _ 0
  refine ⟨trim ⟨n, blank.mapIdx fun j _ => wordOfBytes ((bytes.drop (8 * j)).take
    (min (8 * j + 8) (Size.units n 8) - 8 * j))⟩, ?_, rfl, ?_, ?_⟩
  · rw [ofBytes, FreeMap.storedLength, Size.ceilDiv_of_lt (by omega)]
    change (if _ then _ else _) = _
    rw [if_neg (Nat.not_lt.mpr enough), new_of_lt small]
    rfl
  · intro s hs
    exact (mem_markedSet.mp hs).1
  · intro i
    rw [bit_trim, Bool.eq_iff_iff, Bool.and_eq_true, decide_eq_true_eq, decide_eq_true_eq,
      mem_markedSet]
    apply and_congr_right
    intro inside
    have inside : i < n := inside
    have there : i / 64 < Size.units n 64 := word_lt inside
    have low := Nat.mod_lt i (show 0 < 64 by decide)
    have within : i % 64 / 8 < min (8 * (i / 64) + 8) (Size.units n 8) - 8 * (i / 64) := by
      have : i / 8 < Size.units n 8 := by
        rw [Size.lt_units_iff (by decide)]
        omega
      omega
    rw [bit_eq_getLsbD there, Vector.getElem_mapIdx, wordOfBytes, BitVec.getLsbD_ofNat,
      decide_eq_true low, Bool.true_and, testBit_spelled, marked_slice within, Nat.div_add_mod]

/-! ## To bytes -/

theorem length_wordToBytes (word : BitVec 64) : (wordToBytes word).length = 8 := by
  simp [wordToBytes]

theorem marked_wordToBytes (word : BitVec 64) {k : Nat} (h : k < 64) :
    marked (wordToBytes word) k = word.getLsbD k := by
  have inside : k / 8 < 8 := by omega
  have low := Nat.mod_lt k (show 0 < 8 by decide)
  have byte : (wordToBytes word)[k / 8]? = some (.ofNat (word.toNat >>> (8 * (k / 8)))) := by
    simp [wordToBytes, inside]
  rw [marked, byte, Option.getD_some, UInt8.toNat_ofNat', Nat.testBit_mod_two_pow,
    decide_eq_true low, Bool.true_and, Nat.testBit_shiftRight, Nat.div_add_mod]
  rfl

theorem marked_flatMap (words : List (BitVec 64)) (i : Nat) :
    marked (words.flatMap wordToBytes) i = (words.getD (i / 64) 0).getLsbD (i % 64) := by
  induction words generalizing i with
  | nil => simp [marked]
  | cons word words ih =>
    have length := length_wordToBytes word
    rw [List.flatMap_cons]
    by_cases first : i < 64
    · have place : i / 64 = 0 ∧ i % 64 = i := by omega
      rw [marked_append_left (by omega), marked_wordToBytes word first, place.1, place.2,
        List.getD_cons_zero]
    · obtain ⟨k, rfl⟩ := Nat.exists_eq_add_of_le (Nat.le_of_not_lt first)
      have place : (64 + k) / 64 = k / 64 + 1 ∧ (64 + k) % 64 = k % 64 := by omega
      have behind := marked_append_right (wordToBytes word) (words.flatMap wordToBytes) k
      rw [length] at behind
      rw [behind, ih, place.1, place.2, List.getD_cons_succ]

theorem length_flatMap (words : List (BitVec 64)) :
    (words.flatMap wordToBytes).length = 8 * words.length := by
  induction words with
  | nil => rfl
  | cons word words ih =>
    rw [List.flatMap_cons, List.length_append, length_wordToBytes, ih, List.length_cons]
    omega

namespace Represents

variable (h : map.Represents n used)
include h

theorem length_toBytes : map.toBytes.length = Size.units n 8 := by
  have whole : Size.units n 8 ≤ 8 * Size.units n 64 := by
    have above := Size.le_units_mul (show 0 < 64 by decide) n
    have below := Size.units_mul_lt (show 0 < 8 by decide) n
    omega
  rw [toBytes, List.length_take, length_flatMap, Vector.length_toList, h.sectorCount_eq]
  exact Nat.min_eq_left whole

/-- The bits of the stored form are the set. -/
theorem marked_toBytes (i : Nat) : marked map.toBytes i = decide (i ∈ used) := by
  by_cases there : i / 8 < Size.units n 8
  · have taken : i / 8 < (map.sectorCount + 7) / 8 := by
      rw [h.sectorCount_eq]
      exact there
    have whole : marked map.toBytes i = marked (map.words.toList.flatMap wordToBytes) i := by
      rw [toBytes, marked, marked, List.getElem?_take_of_lt taken]
    rw [whole, marked_flatMap, ← h.bit_eq, bit, List.getD_eq_getElem?_getD, Vector.getElem?_toList]
  · have outside : n ≤ i := by
      rw [Size.lt_units_iff (by decide)] at there
      omega
    rw [← h.bit_eq, h.spare_clear outside]
    apply FreeMap.marked_of_le
    rw [h.length_toBytes]
    omega

/-- A map is read back from its bytes, whatever follows them. -/
theorem ofBytes_toBytes (small : n + 64 < Size.limit) (rest : List UInt8) :
    ofBytes n (map.toBytes ++ rest) = .ok map := by
  have enough : Size.units n 8 ≤ (map.toBytes ++ rest).length := by
    rw [List.length_append, h.length_toBytes]
    exact Nat.le_add_right _ _
  obtain ⟨map', read, represents⟩ := exists_ofBytes enough small
  have same : markedSet n (map.toBytes ++ rest) = used := by
    ext s
    rw [mem_markedSet]
    by_cases hs : s < n
    · have inside : s < 8 * map.toBytes.length := by
        have := Size.le_units_mul (show 0 < 8 by decide) n
        rw [h.length_toBytes]
        omega
      rw [marked_append_left inside, h.marked_toBytes, decide_eq_true_eq]
      exact and_iff_right hs
    · exact iff_of_false (fun marks => hs marks.1) (mt (h.below s) hs)
  rw [same] at represents
  rw [read, represents.unique h]

end Represents

/-- What was read has the bytes it was read from, up to the last sector. -/
theorem toBytes_ofBytes (enough : Size.units n 8 ≤ bytes.length) (small : n + 64 < Size.limit)
    (read : ofBytes n bytes = .ok map) : map.toBytes = trimmed n bytes := by
  obtain ⟨map', read', represents⟩ := exists_ofBytes enough small
  obtain rfl : map = map' := Except.ok.inj (read.symm.trans read')
  apply ext_marked
  · rw [represents.length_toBytes, length_trimmed enough]
  · intro i
    rw [represents.marked_toBytes, marked_trimmed enough, Bool.eq_iff_iff, Bool.and_eq_true,
      decide_eq_true_eq, decide_eq_true_eq, mem_markedSet]

/-- Bytes are read as one map when the flags of the sectors agree. -/
theorem ofBytes_eq_iff {bytes' : List UInt8} (enough : Size.units n 8 ≤ bytes.length)
    (enough' : Size.units n 8 ≤ bytes'.length) (small : n + 64 < Size.limit) :
    ofBytes n bytes = ofBytes n bytes' ↔ ∀ i, i < n → marked bytes i = marked bytes' i := by
  obtain ⟨map, read, represents⟩ := exists_ofBytes enough small
  obtain ⟨map', read', represents'⟩ := exists_ofBytes enough' small
  rw [read, read', Except.ok.injEq]
  constructor
  · rintro rfl i hi
    have bit := (represents.bit_eq i).symm.trans (represents'.bit_eq i)
    rw [decide_eq_decide, mem_markedSet, mem_markedSet, and_iff_right hi, and_iff_right hi] at bit
    exact Bool.eq_iff_iff.mpr bit
  · intro agree
    have same : markedSet n bytes = markedSet n bytes' := by
      ext i
      rw [mem_markedSet, mem_markedSet]
      exact and_congr_right fun hi => by rw [agree i hi]
    rw [same] at represents
    exact represents.unique represents'

end PackedMap

/-! ## Flags -/

namespace FreeMap

theorem toBytes_packed (flags : FreeMap) : flags.packed.toBytes = flags.toBytes := by
  have represents := flags.represents_packed
  apply ext_marked
  · rw [represents.length_toBytes, length_toBytes]
  · intro i
    rw [represents.marked_toBytes, marked]
    by_cases there : i / 8 < (flags.sectorCount + 7) / 8
    · have byte : flags.toBytes[i / 8]? =
          some (packByte fun k => flags.used.getD (8 * (i / 8) + k) false) := by
        simp [toBytes, there]
      rw [byte, Option.getD_some, testBit_packByte _ (Nat.mod_lt i (by decide)), Nat.div_add_mod,
        ← decide_uses, decide_eq_decide.mpr mem_usedSet]
    · have outside : i ∉ flags.usedSet := by
        intro used
        have := (mem_usedSet.mp used).lt
        omega
      rw [decide_eq_false outside]
      simp [toBytes, there]

/-- Words and flags are read alike. -/
theorem exists_ofBytes_packed {n : Nat} {bytes : List UInt8}
    (enough : Size.units n 8 ≤ bytes.length) (small : n + 64 < Size.limit) :
    ∃ flags, ofBytes n bytes = .ok flags ∧ PackedMap.ofBytes n bytes = .ok flags.packed ∧
      flags.sectorCount = n ∧ flags.usedSet = markedSet n bytes := by
  obtain ⟨flags, read, size, uses⟩ := exists_ofBytes enough small
  obtain ⟨map, read', represents⟩ := PackedMap.exists_ofBytes enough small
  have same : flags.usedSet = markedSet n bytes := by
    ext s
    rw [mem_usedSet, uses, mem_markedSet]
  exact ⟨flags, read, by rw [read', represents.eq_packed size same], size, same⟩

end FreeMap

end SectorFS
