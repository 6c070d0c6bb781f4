import Mathlib.Data.List.GetD
import SectorFS.FreeMap.Codec
import SectorFS.Proofs.Size

/-!
# The free map in words

In memory the flags of a free map are the bits of 64-bit words, of which the last may have bits to
spare. `PackedMap` has the operations on words: testing, setting and clearing a bit by masks, the
search for the first word that is not full, counting by words, and the way to bytes and back.
`PackedMap.bit` is what they come down to, for sectors and spare bits alike.
-/

namespace SectorFS

/-- One bit for each sector, in words of 64. The last word may have bits to spare. -/
structure PackedMap where
  sectorCount : Nat
  words : Vector (BitVec 64) (Size.units sectorCount 64)

namespace PackedMap

/-- The word of a sector is there. -/
theorem word_lt {n s : Nat} (h : s < n) : s / 64 < Size.units n 64 := by
  rw [Size.lt_units_iff (by decide)]
  exact Nat.lt_of_le_of_lt (Nat.div_mul_le_self s 64) h

def new (sectors : Nat) : Except Failure PackedMap := do
  FreeMap.checkCount sectors
  return ⟨sectors, .replicate _ 0⟩

/-- The number that bytes spell, lowest first. -/
def spelled : List UInt8 → Nat
  | [] => 0
  | b :: bytes => b.toNat + 0x100 * spelled bytes

/-- The word of up to eight bytes. -/
def wordOfBytes (bytes : List UInt8) : BitVec 64 := .ofNat 64 (spelled bytes)

/-- Clears the spare bits of the last word. -/
def trim (map : PackedMap) : PackedMap where
  sectorCount := map.sectorCount
  words := map.words.mapIdx fun j word =>
    if j + 1 = Size.units map.sectorCount 64 ∧ map.sectorCount % 64 ≠ 0 then
      word &&& (.twoPow 64 (map.sectorCount % 64) - 1#64)
    else word

/-- Reads the stored form. What follows the last bit is ignored. -/
def ofBytes (sectors : Nat) (bytes : List UInt8) : Except Failure PackedMap := do
  let length ← FreeMap.storedLength sectors
  if bytes.length < length then throw (.fault (.mapTooShort sectors))
  let map ← new sectors
  let words := map.words.mapIdx fun j _ =>
    wordOfBytes ((bytes.drop (8 * j)).take (min (8 * j + 8) length - 8 * j))
  return trim { map with words }

/-- The eight bytes of a word, lowest first. -/
def wordToBytes (word : BitVec 64) : List UInt8 :=
  (List.range 8).map fun k => .ofNat (word.toNat >>> (8 * k))

def toBytes (map : PackedMap) : List UInt8 :=
  (map.words.toList.flatMap wordToBytes).take ((map.sectorCount + 7) / 8)

/-- The word that has the bit of a sector. -/
def wordOf (map : PackedMap) (sector : Nat) (h : sector < map.sectorCount) : BitVec 64 :=
  map.words.get ⟨sector / 64, word_lt h⟩

def isUsed (map : PackedMap) (sector : Nat) : Except Failure Bool :=
  if h : sector < map.sectorCount then
    .ok ((map.wordOf sector h >>> (sector % 64)) &&& 1#64 != 0#64)
  else .error (.fault (.outsideMap sector))

/-- Changes the word that has the bit of a sector. -/
def update (map : PackedMap) (sector : Nat) (h : sector < map.sectorCount)
    (change : BitVec 64 → BitVec 64) : PackedMap where
  sectorCount := map.sectorCount
  words := map.words.set (sector / 64) (change (map.wordOf sector h)) (word_lt h)

def reserve (map : PackedMap) (sector : Nat) : Except Failure PackedMap :=
  if h : sector < map.sectorCount then
    .ok (map.update sector h (· ||| .twoPow 64 (sector % 64)))
  else .error (.fault (.outsideMap sector))

def release (map : PackedMap) (sector : Nat) : Except Failure PackedMap := do
  let used ← map.isUsed sector
  if !used then throw (.fault (.alreadyFree sector))
  if h : sector < map.sectorCount then
    return map.update sector h (· &&& ~~~.twoPow 64 (sector % 64))
  else throw (.fault (.outsideMap sector))

/-- How many of the lowest bits are set, up to the first that is not. -/
def trailingOnes (word : BitVec 64) : Nat := (~~~word).ctz.toNat

/-- The first place whose bit is not set. It lies in the first word that is not full. -/
def firstClear? (map : PackedMap) : Option Nat :=
  (map.words.toList.findIdx? (· != BitVec.allOnes 64)).map fun group =>
    group * 64 + trailingOnes (map.words.toList.getD group 0)

/-- Takes the lowest free sector. A bit to spare is none. -/
def claim (map : PackedMap) : Option Nat × PackedMap :=
  match map.firstClear? with
  | none => (none, map)
  | some sector =>
    if h : sector < map.sectorCount then
      (some sector, map.update sector h (· ||| .twoPow 64 (sector % 64)))
    else (none, map)

/-- Counts the bits that are not set. The set ones are counted in 32 bits, and there must be no more
of them than sectors. -/
def freeCount? (map : PackedMap) : Option Nat :=
  let used := map.words.toList.foldr (fun word used => word.cpop.toNat + used) 0
  if used < 0x100000000 ∧ used ≤ map.sectorCount then some (map.sectorCount - used) else none

def usedSectors (map : PackedMap) : List Nat :=
  (List.range map.sectorCount).filter fun sector => (map.isUsed sector).toOption = some true

/-! ## Bits -/

/-- The bit of a sector, or a spare one; none is set behind the last word. -/
def bit (map : PackedMap) (i : Nat) : Bool := (map.words[i / 64]?.getD 0).getLsbD (i % 64)

theorem bit_eq_getLsbD {map : PackedMap} {i : Nat} (h : i / 64 < Size.units map.sectorCount 64) :
    map.bit i = (map.words[i / 64]).getLsbD (i % 64) := by
  simp [bit, h]

theorem bit_of_le {map : PackedMap} {i : Nat} (h : Size.units map.sectorCount 64 ≤ i / 64) :
    map.bit i = false := by
  simp [bit, Nat.not_lt.mpr h]

theorem ext_bit {map map' : PackedMap} (size : map.sectorCount = map'.sectorCount)
    (h : ∀ i, map.bit i = map'.bit i) : map = map' := by
  obtain ⟨n, words⟩ := map
  obtain ⟨n', words'⟩ := map'
  obtain rfl : n = n' := size
  congr
  apply Vector.ext
  intro j hj
  apply BitVec.eq_of_getLsbD_eq
  intro k hk
  have place : (64 * j + k) / 64 = j ∧ (64 * j + k) % 64 = k := by omega
  have := h (64 * j + k)
  rw [bit_eq_getLsbD (by simpa [place] using hj),
    bit_eq_getLsbD (by simpa [place] using hj)] at this
  simpa [place] using this

theorem bit_update (map : PackedMap) {s : Nat} (h : s < map.sectorCount)
    (change : BitVec 64 → BitVec 64) (i : Nat) :
    (map.update s h change).bit i =
      if i / 64 = s / 64 then (change (map.wordOf s h)).getLsbD (i % 64) else map.bit i := by
  have word : (map.update s h change).words[i / 64]? =
      if s / 64 = i / 64 then some (change (map.wordOf s h)) else map.words[i / 64]? :=
    Vector.getElem?_set (word_lt h)
  rw [bit, bit, word]
  by_cases same : i / 64 = s / 64
  · simp [same]
  · simp [same, Ne.symm same]

theorem getLsbD_wordOf {map : PackedMap} {s i : Nat} (h : s < map.sectorCount)
    (same : i / 64 = s / 64) : (map.wordOf s h).getLsbD (i % 64) = map.bit i := by
  have there : i / 64 < Size.units map.sectorCount 64 := same ▸ word_lt h
  rw [bit_eq_getLsbD there]
  simp only [same]
  rfl

theorem shiftRight_and_one (word : BitVec 64) (k : Nat) :
    ((word >>> k) &&& 1#64 != 0#64) = word.getLsbD k := by
  rw [BitVec.and_one_eq_setWidth_ofBool_getLsbD, BitVec.getLsbD_ushiftRight, Nat.add_zero]
  cases word.getLsbD k <;> rfl

theorem isUsed_of_lt {map : PackedMap} {s : Nat} (h : s < map.sectorCount) :
    map.isUsed s = .ok (map.bit s) := by
  rw [isUsed, dif_pos h, shiftRight_and_one, getLsbD_wordOf h rfl]

theorem isUsed_of_le {map : PackedMap} {s : Nat} (h : map.sectorCount ≤ s) :
    map.isUsed s = .error (.fault (.outsideMap s)) := dif_neg (Nat.not_lt.mpr h)

/-- A change of one bit of the word is a change of one bit of the map. -/
theorem bit_update_one (map : PackedMap) {s : Nat} (h : s < map.sectorCount)
    {change : BitVec 64 → BitVec 64} {value : Bool} (one : ∀ word k, k < 64 →
      (change word).getLsbD k = if k = s % 64 then value else word.getLsbD k) (i : Nat) :
    (map.update s h change).bit i = if i = s then value else map.bit i := by
  rw [bit_update]
  by_cases same : i / 64 = s / 64
  · have place : i % 64 = s % 64 ↔ i = s := by omega
    rw [if_pos same, one _ _ (Nat.mod_lt i (by decide)), getLsbD_wordOf h same]
    simp only [place]
  · have other : i ≠ s := fun eq => same (congrArg (· / 64) eq)
    rw [if_neg same, if_neg other]

theorem bit_set (map : PackedMap) {s : Nat} (h : s < map.sectorCount) (i : Nat) :
    (map.update s h (· ||| .twoPow 64 (s % 64))).bit i = if i = s then true else map.bit i := by
  apply bit_update_one
  intro word k hk
  rw [BitVec.getLsbD_or, BitVec.getLsbD_twoPow]
  by_cases same : k = s % 64
  · simp [same, Nat.mod_lt]
  · simp [same, Ne.symm same]

theorem bit_clear (map : PackedMap) {s : Nat} (h : s < map.sectorCount) (i : Nat) :
    (map.update s h (· &&& ~~~.twoPow 64 (s % 64))).bit i = if i = s then false else map.bit i := by
  apply bit_update_one
  intro word k hk
  rw [BitVec.getLsbD_and, BitVec.getLsbD_not, BitVec.getLsbD_twoPow]
  by_cases same : k = s % 64
  · simp [same, Nat.mod_lt]
  · simp [same, hk, Ne.symm same]

/-! ## The first word that is not full -/

theorem getLsbD_trailingOnes {word : BitVec 64} (h : word ≠ BitVec.allOnes 64) :
    trailingOnes word < 64 ∧ word.getLsbD (trailingOnes word) = false ∧
      ∀ k, k < trailingOnes word → word.getLsbD k = true := by
  have clear : ~~~word ≠ 0#64 := by
    intro full
    apply h
    rw [← BitVec.not_not (b := word), full]
    rfl
  have first : (~~~word).getLsbD (trailingOnes word) = true :=
    BitVec.getLsbD_true_ctz_of_ne_zero clear
  rw [BitVec.getLsbD_not, Bool.and_eq_true, decide_eq_true_eq, Bool.not_eq_true'] at first
  refine ⟨first.1, first.2, fun k hk => ?_⟩
  have below : (~~~word).getLsbD k = false := BitVec.getLsbD_false_of_lt_ctz hk
  simpa [Nat.lt_trans hk first.1] using below

theorem getLsbD_getD (map : PackedMap) (group : Nat) {k : Nat} (h : k < 64) :
    (map.words.toList.getD group 0).getLsbD k = map.bit (group * 64 + k) := by
  have place : (group * 64 + k) / 64 = group ∧ (group * 64 + k) % 64 = k := by omega
  rw [bit, place.1, place.2, List.getD_eq_getElem?_getD, Vector.getElem?_toList]

/-- All bits of a word of ones are set. -/
theorem bit_of_allOnes {map : PackedMap} {group : Nat}
    (full : map.words.toList.getD group 0 = BitVec.allOnes 64) {i : Nat} (h : i / 64 = group) :
    map.bit i = true := by
  have inside := Nat.mod_lt i (show 0 < 64 by decide)
  have place : i = group * 64 + i % 64 := by omega
  rw [place, ← getLsbD_getD map group inside, full, BitVec.getLsbD_allOnes, decide_eq_true inside]

/-- Where no word has room, all sectors are used. -/
theorem bit_of_firstClear?_eq_none {map : PackedMap} (h : map.firstClear? = none) {s : Nat}
    (hs : s < map.sectorCount) : map.bit s = true := by
  rw [firstClear?, Option.map_eq_none_iff, List.findIdx?_eq_none_iff] at h
  have there : s / 64 < map.words.toList.length := by
    rw [Vector.length_toList]
    exact word_lt hs
  have full := h _ (List.getElem_mem there)
  refine bit_of_allOnes ?_ rfl
  rw [List.getD_eq_getElem _ _ there]
  simpa using full

/-- All places before the first clear one are set. -/
theorem firstClear?_eq_some {map : PackedMap} {i : Nat} (h : map.firstClear? = some i) :
    map.bit i = false ∧ ∀ j, j < i → map.bit j = true := by
  obtain ⟨group, found, rfl⟩ := Option.map_eq_some_iff.mp h
  obtain ⟨there, room, full⟩ := List.findIdx?_eq_some_iff_getElem.mp found
  have room : map.words.toList.getD group 0 ≠ BitVec.allOnes 64 := by
    rw [List.getD_eq_getElem _ _ there]
    exact bne_iff_ne.mp room
  obtain ⟨inside, clear, below⟩ := getLsbD_trailingOnes room
  refine ⟨by rw [← getLsbD_getD map group inside, clear], fun j hj => ?_⟩
  by_cases earlier : j / 64 < group
  · refine bit_of_allOnes ?_ rfl
    rw [List.getD_eq_getElem _ _ (Nat.lt_trans earlier there)]
    simpa using full (j / 64) earlier
  · have here : j / 64 = group := by omega
    have place : j = group * 64 + j % 64 := by omega
    rw [place, ← getLsbD_getD map group (by omega)]
    exact below _ (by omega)

theorem getLsbD_mask {t : Nat} (ht : t < 64) (k : Nat) :
    (BitVec.twoPow 64 t - 1#64).getLsbD k = decide (k < t) := by
  have pow : 2 ^ t < 2 ^ 64 := Nat.pow_lt_pow_right (by decide) ht
  have pos : 0 < 2 ^ t := Nat.two_pow_pos t
  have value : (BitVec.twoPow 64 t - 1#64).toNat = 2 ^ t - 1 := by
    rw [BitVec.toNat_sub, BitVec.toNat_twoPow]
    simp only [BitVec.toNat_ofNat]
    omega
  rw [BitVec.getLsbD, value, Nat.testBit_two_pow_sub_one]

theorem bit_trim (map : PackedMap) (i : Nat) :
    map.trim.bit i = (decide (i < map.sectorCount) && map.bit i) := by
  have word : map.trim.words[i / 64]? = (map.words[i / 64]?).map fun word =>
      if i / 64 + 1 = Size.units map.sectorCount 64 ∧ map.sectorCount % 64 ≠ 0 then
        word &&& (.twoPow 64 (map.sectorCount % 64) - 1#64)
      else word := Vector.getElem?_mapIdx
  by_cases there : i / 64 < Size.units map.sectorCount 64
  · have above := Size.le_units_mul (show 0 < 64 by decide) map.sectorCount
    have below := Size.units_mul_lt (show 0 < 64 by decide) map.sectorCount
    have inside := Nat.mod_lt map.sectorCount (show 0 < 64 by decide)
    rw [bit, word, bit_eq_getLsbD there, Vector.getElem?_eq_getElem there, Option.map_some,
      Option.getD_some]
    split
    · have place : i % 64 < map.sectorCount % 64 ↔ i < map.sectorCount := by omega
      rw [BitVec.getLsbD_and, getLsbD_mask inside, Bool.and_comm, decide_eq_decide.mpr place]
    · have place : i < map.sectorCount := by omega
      rw [decide_eq_true place, Bool.true_and]
  · rw [bit_of_le (Nat.le_of_not_lt there), bit, word,
      Vector.getElem?_eq_none (Nat.le_of_not_lt there), Bool.and_false]
    exact BitVec.getLsbD_zero

end PackedMap

end SectorFS
