import Mathlib.Algebra.Group.Nat.Defs
import SectorFS.FreeMap.Stored
import SectorFS.Proofs.File.Transfer

/-!
# The stored free map

`FreeMap.ofBytes_toBytes` reads a map back from its bytes, whatever follows them. A file as long as
the stored form therefore keeps the map: `FreeMap.settles_store` puts it there and
`FreeMap.scans_load` finds it, for which it reads all sectors of the file.
-/

namespace SectorFS.FreeMap

/-- Bits put together, the first one lowest. -/
def packBits (bit : Nat → Bool) (positions : List Nat) : Nat :=
  positions.foldr (fun k high => (bit k).toNat + 2 * high) 0

theorem packBits_range'_lt (bit : Nat → Bool) (start count : Nat) :
    packBits bit (List.range' start count) < 2 ^ count := by
  induction count generalizing start with
  | zero => simp [packBits]
  | succ count ih =>
    have := ih (start + 1)
    have low : (bit start).toNat ≤ 1 := Bool.toNat_le _
    rw [List.range'_succ, packBits, List.foldr_cons]
    change _ + 2 * packBits bit _ < _
    omega

theorem testBit_packBits (bit : Nat → Bool) (start count k : Nat) (hk : k < count) :
    (packBits bit (List.range' start count)).testBit k = bit (start + k) := by
  induction count generalizing start k with
  | zero => omega
  | succ count ih =>
    rw [List.range'_succ, packBits, List.foldr_cons]
    change ((bit start).toNat + 2 * packBits bit _).testBit k = _
    cases k with
    | zero => cases bit start <;> simp [Nat.testBit_zero]
    | succ k =>
      have half : ((bit start).toNat + 2 * packBits bit (List.range' (start + 1) count)) / 2 =
          packBits bit (List.range' (start + 1) count) := by
        have low : (bit start).toNat ≤ 1 := Bool.toNat_le _
        omega
      rw [Nat.testBit_succ, half, ih (start + 1) k (by omega)]
      congr 1
      omega

theorem testBit_packByte (bit : Nat → Bool) {k : Nat} (hk : k < 8) :
    (packByte bit).toNat.testBit k = bit k := by
  have bound : packBits bit (List.range' 0 8) < 2 ^ 8 := packBits_range'_lt bit 0 8
  have : (packByte bit).toNat = packBits bit (List.range' 0 8) := by
    rw [packByte, UInt8.toNat_ofNat', List.range_eq_range']
    exact Nat.mod_eq_of_lt bound
  simp [this, testBit_packBits bit 0 8 k hk]

@[simp] theorem length_toBytes (map : FreeMap) :
    map.toBytes.length = Size.units map.sectorCount 8 := by
  simp [toBytes, Size.units]

theorem checkCount_of_lt {sectors : Nat} (h : sectors + 64 < Size.limit) :
    checkCount sectors = .ok () := by
  rw [checkCount, Size.ceilDiv_of_lt h]
  rfl

/-- A map is read back from its stored form. -/
theorem ofBytes_toBytes (map : FreeMap) (rest : List UInt8)
    (h : map.sectorCount + 64 < Size.limit) :
    ofBytes map.sectorCount (map.toBytes ++ rest) = .ok map := by
  have bit (i : Nat) (hi : i < map.sectorCount) :
      ((map.toBytes ++ rest).toArray.getD (i / 8) 0).toNat.testBit (i % 8) = map.used[i] := by
    have place : i / 8 < (map.sectorCount + 7) / 8 := by omega
    have byte : (map.toBytes ++ rest).toArray.getD (i / 8) 0 =
        packByte fun k => map.used.getD (8 * (i / 8) + k) false := by
      rw [Array.getD_eq_getD_getElem?, List.getElem?_toArray,
        List.getElem?_append_left (by simpa [toBytes] using place)]
      simp [toBytes, place]
    rw [byte, testBit_packByte _ (Nat.mod_lt i (by decide)), Nat.div_add_mod,
      Array.getD_eq_getD_getElem?, Array.getElem?_eq_getElem hi, Option.getD_some]
  have enough : ¬ (map.toBytes ++ rest).length < Size.units map.sectorCount 8 := by
    rw [List.length_append, length_toBytes]
    omega
  have flags : (Array.ofFn fun i : Fin map.sectorCount =>
      ((map.toBytes ++ rest).toArray.getD (i / 8) 0).toNat.testBit (i % 8)) = map.used := by
    apply Array.ext
    · rw [Array.size_ofFn]
      rfl
    · intro i hi hi'
      rw [Array.getElem_ofFn]
      exact bit i hi'
  rw [ofBytes, storedLength, Size.ceilDiv_of_lt (by omega)]
  change (if _ then _ else _) = _
  rw [if_neg enough, checkCount_of_lt h]
  exact congrArg (fun used => Except.ok (FreeMap.mk used)) flags

variable {n : Nat} {store : Store} {file : File} {data : List Nat}

/-- A file that holds the stored form of a map and no more loads as this map. -/
theorem scans_load {map : FreeMap} (h : file.Addresses n data)
    (small : map.sectorCount + 64 < Size.limit)
    (holds : (store.bytes data).take file.length = map.toBytes)
    (full : data.length = Size.units file.length sectorSize) :
    Scans n store (· ∈ data) (FreeMap.load file map.sectorCount) (.ok map) := by
  have fits := h.length_le
  have length : file.length = Size.units map.sectorCount 8 := by
    rw [← length_toBytes, ← holds, List.length_take, Store.length_bytes]
    exact (Nat.min_eq_left fits).symm
  have read := h.scans_readAt store 0 (Size.units map.sectorCount 8)
  rw [holds, List.drop_zero, List.take_of_length_le (Nat.le_of_eq map.length_toBytes)] at read
  rw [FreeMap.load, storedLength, Size.ceilDiv_of_lt (by omega)]
  refine .mono (.andThen (.lift _) (.finish read ?_)) ?_
  · rw [ofBytes_toBytes map _ small]
    exact .lift _
  · intro s hs
    obtain ⟨i, hi, rfl⟩ := List.getElem_of_mem hs
    have inside : i * sectorSize < file.length := by
      rw [full, Size.lt_units_iff (by decide)] at hi
      exact hi
    refine ⟨i * sectorSize, Nat.zero_le _, ?_, ?_⟩
    · rw [File.clip_eq_min, length] at *
      omega
    · rw [Nat.mul_div_cancel i (by decide)]
      exact List.getElem?_eq_getElem hi

/-- Storing a map in a file of its size writes its stored form and touches data sectors only. When
they are known already, it cannot fail. -/
theorem settles_store {map : FreeMap} {K : Nat → Prop} (h : file.Addresses n data)
    (length : file.length = Size.units map.sectorCount 8) (quiet : ∀ s ∈ data, K s)
    (store : Store) :
    ∃ ws : Writes, Settles n store K (map.store file) (.ok ()) ws ∧ (∀ w ∈ ws, w.1 ∈ data) ∧
      ((store.after ws).bytes data).take file.length = map.toBytes := by
  obtain ⟨ws, runs, targets, after⟩ := h.settles_writeAt store 0 map.toBytes (.inr quiet)
  have fits := h.length_le
  have clip : file.clip 0 map.toBytes.length = map.toBytes.length := by
    rw [File.clip, length_toBytes, length]
    split <;> omega
  refine ⟨ws, .finish runs (.done _), targets, ?_⟩
  rw [after, clip, List.take_length,
    take_overlay (by rw [length, length_toBytes]; omega) (by rw [Store.length_bytes]; exact fits)]
  apply overlay_zero
  rw [List.length_take, Store.length_bytes, length_toBytes]
  omega

end SectorFS.FreeMap
