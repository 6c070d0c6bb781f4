import SectorFS.Proofs.File.Header
import SectorFS.Proofs.FreeMap.Claims

/-!
# Allocation

`Header.allocate_empty` gives the outcome for every size and map: too large a size, too few free
sectors, or the lowest free sectors dealt to the file. On a disk of at most `diskLimit` sectors the
header is that of an `Extent` whose sectors were free, `Header.exists_extent`.
-/

namespace SectorFS

/-- The most sectors of a disk on which every file has a length that a header record can hold. -/
def diskLimit : Nat := 0x1000000

theorem addressable_of_le {n : Nat} (small : n ≤ diskLimit) :
    n * sectorSize ≤ Disk.offsetLimit := by
  simp only [diskLimit, sectorSize, Disk.offsetLimit] at *
  omega

/-- Data sectors and index blocks of a file of `size` bytes. -/
def Extent.span (size : Nat) : Nat :=
  Size.units size sectorSize + Size.units (Size.units size sectorSize) slotsPerBlock

/-- Where there are data sectors, there is an index block besides. -/
theorem Extent.units_lt_span (size : Nat) :
    Size.units size sectorSize = 0 ∨ Size.units size sectorSize < Extent.span size := by
  by_cases none : Size.units size sectorSize = 0
  · exact .inl none
  · have : 0 < Size.units (Size.units size sectorSize) slotsPerBlock :=
      (Size.lt_units_iff (by decide)).mpr (by omega)
    unfold Extent.span
    omega

namespace Chain

/-- The number of sectors for `count` data sectors is within the range. -/
theorem needed_of_lt {count : Nat} (h : 2 * count + 2 * slotsPerBlock < Size.limit) :
    blocksFor count = .ok (Size.units count slotsPerBlock) ∧
      Size.add count (Size.units count slotsPerBlock) =
        .ok (count + Size.units count slotsPerBlock) := by
  have few : Size.units count slotsPerBlock ≤ count + slotsPerBlock := by
    have := Nat.div_le_self (count + slotsPerBlock - 1) slotsPerBlock
    unfold Size.units
    omega
  exact ⟨Size.ceilDiv_of_lt (by omega), Size.add_of_lt (by omega)⟩

theorem allocate_of_lt {map : FreeMap} {count : Nat}
    (h : 2 * count + 2 * slotsPerBlock < Size.limit) :
    allocate map count =
      if map.freeCount < count + Size.units count slotsPerBlock then .error (.error .noSpace)
      else .ok (⟨deal ((map.sectorsWhere false).take (count + Size.units count slotsPerBlock))⟩,
        map.fill (count + Size.units count slotsPerBlock)) := by
  obtain ⟨blocks, needed⟩ := needed_of_lt h
  rw [allocate, blocks]
  simp only [bind, Except.bind, needed]
  by_cases hf : map.freeCount < count + Size.units count slotsPerBlock
  · rw [if_pos hf, if_pos hf]
    rfl
  · rw [if_neg hf, if_neg hf, FreeMap.claimMany?_of_le (Nat.not_lt.mp hf)]
    rfl

end Chain

namespace Header

/-- A size that cannot be rounded up to whole sectors is a fault. -/
theorem allocate_of_le {map : FreeMap} {size : Nat} (header : Header)
    (h : Size.limit ≤ size + sectorSize) :
    header.allocate map size = .error (.fault .addOverflow) := by
  rw [allocate, Size.ceilDiv_of_le h]
  rfl

/-- A size that can be rounded up leaves room for all sums that follow. -/
theorem count_small {size : Nat} (h : size + sectorSize < Size.limit) :
    2 * Size.units size sectorSize + 2 * slotsPerBlock < Size.limit := by
  have := Size.units_mul_lt (show 0 < sectorSize by decide) size
  simp only [sectorSize, slotsPerBlock, Size.limit] at *
  omega

/-- An empty header takes the lowest free sectors, or refuses when there are too few. -/
theorem allocate_empty {map : FreeMap} {size : Nat} (h : size + sectorSize < Size.limit) :
    empty.allocate map size =
      if map.freeCount < Extent.span size then .error (.error .noSpace)
      else .ok (⟨size, Size.units size sectorSize,
          ⟨Chain.deal ((map.sectorsWhere false).take (Extent.span size))⟩⟩,
        map.fill (Extent.span size)) := by
  rw [allocate, Size.ceilDiv_of_lt h]
  simp only [bind, Except.bind, Chain.allocate_of_lt (count_small h)]
  change (if false = true then _ else _) = _
  rw [if_neg Bool.false_ne_true]
  by_cases hf : map.freeCount < Extent.span size
  · rw [if_pos hf, if_pos (by exact hf)]
  · rw [if_neg hf, if_neg (by exact hf)]
    rfl

theorem freeCount_le (map : FreeMap) : map.freeCount ≤ map.sectorCount :=
  Array.count_le_size

theorem length_free_take {map : FreeMap} {k : Nat} (h : k ≤ map.freeCount) :
    ((map.sectorsWhere false).take k).length = k := by
  rw [List.length_take, FreeMap.length_sectorsWhere]
  exact Nat.min_eq_left h

theorem allocate_empty_ok {map map' : FreeMap} {size : Nat} {header : Header}
    (h : empty.allocate map size = .ok (header, map')) :
    Extent.span size ≤ map.freeCount ∧
      header = ⟨size, Size.units size sectorSize,
        ⟨Chain.deal ((map.sectorsWhere false).take (Extent.span size))⟩⟩ ∧
      map' = map.fill (Extent.span size) := by
  by_cases large : Size.limit ≤ size + sectorSize
  · rw [allocate_of_le _ large] at h
    cases h
  · rw [allocate_empty (by omega)] at h
    by_cases full : map.freeCount < Extent.span size
    · rw [if_pos full] at h
      cases h
    · rw [if_neg full] at h
      obtain ⟨rfl, rfl⟩ := Prod.mk.inj (Except.ok.inj h)
      exact ⟨Nat.not_lt.mp full, rfl, rfl⟩

/-- A header is that of an extent of free sectors when words can hold its numbers. -/
theorem exists_extent_of_lt {map map' : FreeMap} {size : Nat} {header : Header}
    (short : size < Word.sectorLimit) (small : map.sectorCount ≤ Word.sectorLimit)
    (h : empty.allocate map size = .ok (header, map')) :
    ∃ extent : Extent, header = extent.header ∧ extent.size = size ∧
      extent.sectors = (map.sectorsWhere false).take (Extent.span size) ∧
      map.Takes extent.sectors map' := by
  obtain ⟨enough, rfl, rfl⟩ := allocate_empty_ok h
  have takes := map.takes_fill (Extent.span size)
  let extent : Extent :=
    { size
      sectors := (map.sectorsWhere false).take (Extent.span size)
      size_lt := short
      length_sectors := length_free_take enough
      sector_lt := fun s hs => Nat.lt_of_lt_of_le (takes.free s hs).1 small
      nodup := takes.nodup }
  exact ⟨extent, rfl, rfl, rfl, takes⟩

/-- On a disk that is not too large no other header is allocated. -/
theorem exists_extent {map map' : FreeMap} {size : Nat} {header : Header}
    (small : map.sectorCount ≤ diskLimit) (h : empty.allocate map size = .ok (header, map')) :
    ∃ extent : Extent, header = extent.header ∧ extent.size = size ∧
      extent.sectors = (map.sectorsWhere false).take (Extent.span size) ∧
      map.Takes extent.sectors map' := by
  have enough := (allocate_empty_ok h).1
  have short : size < Word.sectorLimit := by
    have := freeCount_le map
    have := Size.le_units_mul (show 0 < sectorSize by decide) size
    have := Extent.units_lt_span size
    simp only [diskLimit, Word.sectorLimit, sectorSize] at *
    omega
  exact exists_extent_of_lt short (Nat.le_trans small (by decide)) h

/-- Allocation refuses for want of space only; a fault needs a size near the limit of sizes. -/
theorem allocate_empty_error {map : FreeMap} {size : Nat} {e : Failure}
    (h : empty.allocate map size = .error e) :
    e = .error .noSpace ∧ size + sectorSize < Size.limit ∨
      e = .fault .addOverflow ∧ Size.limit ≤ size + sectorSize := by
  by_cases large : Size.limit ≤ size + sectorSize
  · rw [allocate_of_le _ large] at h
    exact .inr ⟨(Except.error.inj h).symm, large⟩
  · rw [allocate_empty (by omega)] at h
    by_cases hf : map.freeCount < Extent.span size
    · rw [if_pos hf] at h
      exact .inl ⟨(Except.error.inj h).symm, by omega⟩
    · rw [if_neg hf] at h
      cases h

end Header

namespace Extent

/-- Releasing an extent gives back exactly its sectors. -/
theorem release {extent : Extent} {map : FreeMap} (h : ∀ s ∈ extent.sectors, map.Uses s) :
    ∃ map', extent.header.release map = .ok map' ∧ map'.sectorCount = map.sectorCount ∧
      ∀ t, map'.Uses t ↔ t ∉ extent.sectors ∧ map.Uses t := by
  have perm := extent.sectors_chain
  obtain ⟨map', run, size, uses⟩ := FreeMap.foldlM_release (perm.nodup_iff.mpr extent.nodup)
    fun s hs => h s (perm.mem_iff.mp hs)
  exact ⟨map', run, size, fun t => by rw [uses, perm.mem_iff]⟩

end Extent

end SectorFS
