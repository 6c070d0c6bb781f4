import SectorFS.Proofs.File.Allocation

/-!
# Headers that are stored and loaded again

A record keeps the low 32 bits of a length and of a number of sectors. A header whose length needs
more than 31 of them is stored all the same, but its record cannot pass for another one's: the
length comes out negative, or too small for so many sectors. `Header.load_stored` says that such a
header is refused and that all others come back as they were.
-/

namespace SectorFS.Header

variable {n sector size : Nat} {store : Store} {header : Header}

/-- The numbers of the record are those of a file: the length is not negative, and covered by the
sectors. -/
def Readable (header : Header) : Prop :=
  (UInt32.ofNat header.length).toNat < Word.sectorLimit ∧
    (UInt32.ofNat header.sectorCount).toNat =
      Size.units (UInt32.ofNat header.length).toNat sectorSize

/-- What is loaded from a record that is not one of a file. -/
def refusal (header : Header) (sector : Nat) : Failure :=
  .error (.invalidLayout (.headerSizes sector (Word.toSigned (.ofNat header.length))
    (Word.toSigned (.ofNat header.sectorCount))))

theorem runs_load_refused (hs : sector < n) (stored : store sector = header.toSector)
    (unreadable : ¬ header.Readable) :
    Runs n store (load sector) (.error (header.refusal sector)) [] := by
  obtain ⟨first, second, -⟩ := header.words_toSector
  unfold load
  refine .andThen (.read hs) ?_
  simp only [stored, first, second]
  by_cases negative : 0x80000000 ≤ (UInt32.ofNat header.length).toNat
  · exact .guardFails negative
  · have fits : (UInt32.ofNat header.length).toNat + sectorSize < Size.limit := by
      simp only [sectorSize, Size.limit]
      omega
    have rounds : Runs n store
        (liftM (Size.ceilDiv (UInt32.ofNat header.length).toNat sectorSize))
        (.ok (Size.units (UInt32.ofNat header.length).toNat sectorSize)) [] := by
      rw [Size.ceilDiv_of_lt fits]
      exact .lift _
    refine .guardPasses negative (.andThen rounds (.guardFails ?_))
    intro covers
    exact unreadable ⟨Nat.not_le.mp negative, covers⟩

/-- A length of which the record loses a part does not fit the number of its sectors. -/
theorem not_readable (large : Word.sectorLimit ≤ size)
    (few : Size.units size sectorSize < Word.sectorLimit) (chain : Chain) :
    ¬ Readable ⟨size, Size.units size sectorSize, chain⟩ := by
  intro ⟨positive, covers⟩
  simp only [UInt32.toNat_ofNat', Size.units, sectorSize, Word.sectorLimit] at *
  omega

/-- The index blocks of an allocated header are sectors that were free. -/
theorem indexSectors_of_allocate {map map' : FreeMap}
    (allocated : empty.allocate map size = .ok (header, map')) {s : Nat}
    (hs : s ∈ header.indexSectors) : s < map.sectorCount ∧ ¬ map.Uses s := by
  obtain ⟨-, rfl, -⟩ := allocate_empty_ok allocated
  rw [indexSectors, Chain.indexSectors_deal] at hs
  apply (map.takes_fill (Extent.span size)).free
  exact (Chain.perm_dealt _).mem_iff.mp (List.mem_append_left _ hs)

/-- An allocated header that is stored is loaded as it was, if a record can hold its length. A
longer one is refused, and not taken for another. -/
theorem load_stored {map map' : FreeMap} {disk : Disk}
    (small : map.sectorCount ≤ Word.sectorLimit)
    (allocated : empty.allocate map size = .ok (header, map'))
    (sound : disk.Sound n) (room : map.sectorCount ≤ n) (inside : sector < n)
    (fresh : sector ∉ header.indexSectors) :
    ∃ stored loaded, header.store sector disk = .ok () stored ∧ stored.Untouched loaded ∧
      load sector stored =
        if size < Word.sectorLimit then .ok header loaded
        else .error (header.refusal sector) loaded := by
  have index : ∀ s ∈ header.indexSectors, s < n := by
    intro s hs
    exact Nat.lt_of_lt_of_le (indexSectors_of_allocate allocated hs).1 room
  obtain ⟨stored, ends, wrote⟩ := (settles_store (K := fun _ => True) inside index).runs.ends sound
  have holds : stored.store = disk.store.after (header.writes sector) := wrote.store_eq sound.covers
  by_cases short : size < Word.sectorLimit
  · obtain ⟨extent, rfl, -, -, takes⟩ := exists_extent_of_lt short small allocated
    have within : ∀ s ∈ extent.sectors, s < n := by
      intro s hs
      exact Nat.lt_of_lt_of_le (takes.free s hs).1 room
    have fresh : sector ∉ extent.index := extent.indexSectors_chain ▸ fresh
    have there := holds ▸ Extent.storedAt_writes fresh
    obtain ⟨loaded, loads, nothing⟩ :=
      (Extent.runs_load inside within there).ends (wrote.sound sound)
    refine ⟨stored, loaded, ends, nothing.untouched, ?_⟩
    rw [if_pos short]
    exact loads
  · obtain ⟨enough, rfl, -⟩ := allocate_empty_ok allocated
    have few : Size.units size sectorSize < Word.sectorLimit := by
      have := freeCount_le map
      have := Extent.units_lt_span size
      simp only [Word.sectorLimit] at *
      omega
    have there : stored.store sector = _ := holds ▸ after_writes_apply fresh disk.store
    obtain ⟨loaded, loads, nothing⟩ :=
      (runs_load_refused inside there (not_readable (Nat.not_lt.mp short) few _)).ends
        (wrote.sound sound)
    refine ⟨stored, loaded, ends, nothing.untouched, ?_⟩
    rw [if_neg short]
    exact loads

/-- A small file among others, and one whose length is the first that a record cannot hold. -/
theorem load_stored_limit :
    (∃ header map stored loaded,
      empty.allocate ⟨#[true, false, false, true, false, true, false, false]⟩ 300 =
        .ok (header, map) ∧
      header.store 0 (.blank 8) = .ok () stored ∧ load 0 stored = .ok header loaded) ∧
    ∃ header map stored loaded,
      empty.allocate ⟨.replicate 0x2000000 false⟩ 0x80000000 = .ok (header, map) ∧
      header.store 0x2000000 (.blank 0x2000001) = .ok () stored ∧
      load 0x2000000 stored = .error (header.refusal 0x2000000) loaded := by
  constructor
  · have allocated := @allocate_empty ⟨#[true, false, false, true, false, true, false, false]⟩ 300
      (by decide)
    rw [if_neg (by decide)] at allocated
    have fresh (mem : 0 ∈ _) := (indexSectors_of_allocate allocated mem).2 (by decide)
    obtain ⟨stored, loaded, stores, -, loads⟩ := load_stored (by decide) allocated
      (Disk.sound_blank (n := 8) (by decide)) (by decide) (by decide) fresh
    exact ⟨_, _, stored, loaded, allocated, stores, loads⟩
  · have free : FreeMap.freeCount ⟨.replicate 0x2000000 false⟩ = 0x2000000 := by
      simp [FreeMap.freeCount]
    have count : FreeMap.sectorCount ⟨.replicate 0x2000000 false⟩ = 0x2000000 := by
      simp [FreeMap.sectorCount]
    have span : Extent.span 0x80000000 = 17318417 := by decide
    have allocated := @allocate_empty ⟨.replicate 0x2000000 false⟩ 0x80000000 (by decide)
    rw [free, span, if_neg (by decide)] at allocated
    have fresh (mem : 0x2000000 ∈ _) := by
      have inside := (indexSectors_of_allocate allocated mem).1
      rw [count] at inside
      exact Nat.lt_irrefl _ inside
    have small : 0x2000000 ≤ Word.sectorLimit := by decide
    rw [← count] at small
    obtain ⟨stored, loaded, stores, -, loads⟩ := load_stored small allocated
      (Disk.sound_blank (n := 0x2000001) (by decide)) (by rw [count]; omega) (by decide) fresh
    exact ⟨_, _, stored, loaded, allocated, stores, loads⟩

end SectorFS.Header
