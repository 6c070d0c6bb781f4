import SectorFS.File.Block
import SectorFS.Proofs.Word

/-!
# Index blocks read back as they were written

`IndexBlock.ofSector_toSector` holds of every block, `IndexBlock.toSector_ofSector` of every sector
that is read as one. A block made by `IndexBlock.ofSectors` lists exactly the sectors it was made
from, `dataSectors_ofSectors` as a whole and `dataSector?_ofSectors` slot by slot.
-/

namespace SectorFS.IndexBlock

theorem ofSector_toSector (block : IndexBlock) : ofSector block.toSector = block := by
  have length : ((block.link :: block.slots.toList).flatMap Word.toBytes).length = sectorSize := by
    rw [Word.length_flatMap_toBytes, List.length_cons, Vector.length_toList]
    rfl
  have bytes : block.toSector.bytes = (block.link :: block.slots.toList).flatMap Word.toBytes := by
    simp only [toSector, Sector.ofBytes, length, Nat.sub_self, List.replicate_zero, List.append_nil]
    exact List.take_of_length_le (Nat.le_of_eq length)
  have slots : (Vector.ofFn fun i : Fin slotsPerBlock =>
      ((block.link :: block.slots.toList).toArray.getD (i + 1) 0)) = block.slots := by
    apply Vector.ext
    intro i hi
    rw [Vector.getElem_ofFn]
    simp [hi]
  rw [ofSector, bytes, Word.decode_flatMap]
  simp only [slots]
  rfl

/-- Writing a block back to where it was read changes nothing. -/
theorem toSector_ofSector (sector : Sector) : (ofSector sector).toSector = sector := by
  have length : (Word.decode sector.bytes).length = slotsPerBlock + 1 := by
    rw [Word.length_decode, sector.length_bytes]
    rfl
  have words : (ofSector sector).link :: (ofSector sector).slots.toList =
      Word.decode sector.bytes := by
    apply List.ext_getElem
    · simp [length]
    · intro i hi hi'
      cases i <;> simp [ofSector, hi']
  have bytes : (Word.decode sector.bytes).flatMap Word.toBytes = sector.bytes :=
    Word.flatMap_decode (by rw [sector.length_bytes]; rfl)
  obtain ⟨data, size⟩ := sector
  simp only [toSector, words, bytes, Sector.ofBytes, size, Nat.sub_self, List.replicate_zero,
    List.append_nil, Sector.mk.injEq]
  exact List.take_of_length_le (Nat.le_of_eq size)

theorem leadingSectors_append {data : List Nat} (h : ∀ s ∈ data, s < Word.sectorLimit)
    (rest : List UInt32) :
    leadingSectors (data.map (fun s => Word.ofSector? (some s)) ++ rest) =
      data ++ leadingSectors rest := by
  induction data with
  | nil => rfl
  | cons s data ih =>
    simp only [List.map_cons, List.cons_append, leadingSectors,
      Word.sector?_ofSector (h s List.mem_cons_self),
      ih fun t ht => h t (List.mem_cons_of_mem _ ht)]

theorem slots_ofSectors (next : Option Nat) {data : List Nat} (h : data.length ≤ slotsPerBlock) :
    (ofSectors next data).slots.toList = data.map (fun s => Word.ofSector? (some s)) ++
      List.replicate (slotsPerBlock - data.length) Word.noSector := by
  apply List.ext_getElem
  · simp [ofSectors]
    omega
  · intro i hi _
    simp only [ofSectors, Vector.toList_ofFn, List.getElem_ofFn]
    by_cases hd : i < data.length
    · simp [List.getElem_append_left, hd]
    · rw [List.getElem_append_right (by simpa using hd), List.getElem_replicate,
        List.getElem?_eq_none (by omega)]
      rfl

theorem dataSectors_ofSectors (next : Option Nat) {data : List Nat}
    (h : data.length ≤ slotsPerBlock) (limit : ∀ s ∈ data, s < Word.sectorLimit) :
    (ofSectors next data).dataSectors = data := by
  have empty (k : Nat) : leadingSectors (List.replicate k Word.noSector) = [] := by
    cases k <;> rfl
  simp [dataSectors, slots_ofSectors next h, leadingSectors_append limit, empty]

theorem dataSector?_ofSectors (next : Option Nat) {data : List Nat}
    (h : data.length ≤ slotsPerBlock) (limit : ∀ s ∈ data, s < Word.sectorLimit) (slot : Nat) :
    (ofSectors next data).dataSector? slot = data[slot]? := by
  by_cases hs : slot < slotsPerBlock
  · have : (ofSectors next data).slots[slot]? = some (Word.ofSector? data[slot]?) := by
      simp [ofSectors, hs]
    rw [dataSector?, this, Option.bind_some]
    exact Word.sector?_ofSector? fun s hm => limit s (List.mem_of_getElem? hm)
  · have : data[slot]? = none := List.getElem?_eq_none (by omega)
    simp [dataSector?, ofSectors, hs, this]

theorem next?_ofSectors {next : Option Nat} (h : ∀ s ∈ next, s < Word.sectorLimit)
    (data : List Nat) : (ofSectors next data).next? = next :=
  Word.sector?_ofSector? h

end SectorFS.IndexBlock
