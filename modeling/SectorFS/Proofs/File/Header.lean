import SectorFS.File.Header
import SectorFS.Proofs.File.Chain
import SectorFS.Proofs.Size

/-!
# Headers of extents

An `Extent` is a file's length with the sectors dealt to it. Headers on a volume are headers of
extents: `Header.allocate` makes no other, and `Extent.runs_load` reads one back wherever
`Extent.StoredAt` says that it was stored.
-/

namespace SectorFS

/-- A file of `size` bytes in the sectors dealt to it: an index block, the data sectors that it
lists, the next index block, and so on. -/
structure Extent where
  size : Nat
  sectors : List Nat
  size_lt : size < Word.sectorLimit
  length_sectors : sectors.length =
    Size.units size sectorSize + Size.units (Size.units size sectorSize) slotsPerBlock
  sector_lt : ∀ s ∈ sectors, s < Word.sectorLimit
  nodup : sectors.Nodup

namespace Extent

/-- How many data sectors the extent has. -/
def count (extent : Extent) : Nat := Size.units extent.size sectorSize

def chain (extent : Extent) : Chain := ⟨Chain.deal extent.sectors⟩

def header (extent : Extent) : Header := ⟨extent.size, extent.count, extent.chain⟩

/-- The data sectors in file order. -/
def data (extent : Extent) : List Nat := Chain.dealtData extent.sectors

def index (extent : Extent) : List Nat := Chain.dealtIndex extent.sectors

variable (extent : Extent)

@[simp] theorem length_header : extent.header.length = extent.size := rfl

theorem length_data : extent.data.length = extent.count :=
  Chain.length_dealtData_of_length extent.length_sectors

theorem length_blocks : extent.chain.blocks.length = Size.units extent.count slotsPerBlock :=
  Chain.length_deal_of_length extent.length_sectors

theorem perm_sectors : (extent.index ++ extent.data).Perm extent.sectors :=
  Chain.perm_dealt extent.sectors

theorem mem_sectors {s : Nat} : s ∈ extent.sectors ↔ s ∈ extent.index ∨ s ∈ extent.data := by
  rw [← extent.perm_sectors.mem_iff, List.mem_append]

theorem nodup_parts : (extent.index ++ extent.data).Nodup :=
  extent.perm_sectors.nodup_iff.mpr extent.nodup

theorem nodup_data : extent.data.Nodup := (List.nodup_append.mp extent.nodup_parts).2.1

theorem nodup_index : extent.index.Nodup := (List.nodup_append.mp extent.nodup_parts).1

theorem notMem_data_of_mem_index {s : Nat} (h : s ∈ extent.index) : s ∉ extent.data :=
  fun hd => (List.nodup_append.mp extent.nodup_parts).2.2 s h s hd rfl

theorem indexSectors_chain : extent.chain.indexSectors = extent.index :=
  Chain.indexSectors_deal extent.sectors

theorem dataSectors_chain : extent.chain.dataSectors = extent.data :=
  Chain.dataSectors_deal extent.sector_lt

theorem sectors_chain : extent.chain.sectors.Perm extent.sectors :=
  Chain.sectors_deal extent.sector_lt

/-- The file's bytes lie in its data sectors. -/
theorem size_le : extent.size ≤ extent.data.length * sectorSize := by
  rw [length_data]
  exact Size.le_units_mul (by decide) _

theorem sectorAt_header {i s : Nat} (h : extent.data[i]? = some s) :
    extent.header.sectorAt (i * sectorSize) = .ok s := by
  rw [Header.sectorAt, Nat.mul_div_cancel i (by decide)]
  exact Chain.sectorOf_deal extent.sector_lt h

/-! ## On disk -/

/-- The header and the index blocks of the extent are stored, the header at `sector`. -/
structure StoredAt (store : Store) (sector : Nat) : Prop where
  header : store sector = extent.header.toSector
  blocks : ∀ stored ∈ extent.chain.blocks, store stored.sector = stored.block.toSector

variable {extent} {store store' : Store} {sector : Nat}

/-- Only the header sector and the index blocks matter. -/
theorem StoredAt.congr (h : extent.StoredAt store sector) (header : store' sector = store sector)
    (index : ∀ s ∈ extent.index, store' s = store s) : extent.StoredAt store' sector where
  header := header.trans h.header
  blocks stored hs := by
    have : stored.sector ∈ extent.index := by
      rw [← indexSectors_chain]
      exact List.mem_map_of_mem hs
    simp [index _ this, h.blocks stored hs]

end Extent

namespace Header

/-- What storing the header at `sector` writes. -/
def writes (header : Header) (sector : Nat) : Writes :=
  (sector, header.toSector) :: header.chain.writes

theorem map_fst_writes (header : Header) (sector : Nat) :
    (header.writes sector).map Prod.fst = sector :: header.indexSectors := by
  rw [writes, List.map_cons, Chain.map_fst_writes]
  rfl

theorem settles_store {n : Nat} {store : Store} {K : Nat → Prop} {header : Header}
    {sector : Nat} (hs : sector < n) (h : ∀ s ∈ header.indexSectors, s < n) :
    Settles n store K (header.store sector) (.ok ()) (header.writes sector) :=
  .step (.write hs _) (Chain.settles_store h)

/-- A sector that is not an index block as well holds the record. -/
theorem after_writes_apply {header : Header} {sector : Nat} (fresh : sector ∉ header.indexSectors)
    (store : Store) : store.after (header.writes sector) sector = header.toSector := by
  rw [writes, Store.after_cons, Store.after_apply_of_notMem, Function.update_self]
  rw [Chain.map_fst_writes]
  exact fresh

/-- The three words of a record at the front of a sector read back. -/
theorem words_toSector (header : Header) :
    let words := (Word.decode header.toSector.bytes).toArray
    words.getD 0 0 = .ofNat header.length ∧ words.getD 1 0 = .ofNat header.sectorCount ∧
      words.getD 2 0 = Word.ofSector? header.chain.head? := by
  have length : (header.record.flatMap Word.toBytes).length = 12 := by
    rw [Word.length_flatMap_toBytes]
    rfl
  have words : Word.decode header.toSector.bytes =
      header.record ++ Word.decode (List.replicate (sectorSize - 12) 0) := by
    simp only [toSector, Sector.ofBytes, length]
    rw [List.take_of_length_le (by rw [length]; decide), Word.decode_flatMap_append]
  simp [words, record]

end Header

namespace Extent

variable {n : Nat} {store : Store} {extent : Extent} {sector : Nat}

theorem storedAt_writes (fresh : sector ∉ extent.index) :
    extent.StoredAt (store.after (extent.header.writes sector)) sector := by
  have nodup : ((extent.header.writes sector).map Prod.fst).Nodup := by
    rw [Header.map_fst_writes, List.nodup_cons]
    have : extent.header.indexSectors = extent.index := extent.indexSectors_chain
    rw [this]
    exact ⟨fresh, extent.nodup_index⟩
  constructor
  · exact Store.after_apply_of_mem store nodup List.mem_cons_self
  · intro stored hs
    exact Store.after_apply_of_mem store nodup
      (List.mem_cons_of_mem _ (List.mem_map_of_mem (f := fun stored : StoredBlock =>
        (stored.sector, stored.block.toSector)) hs))

theorem settles_store {K : Nat → Prop} (hs : sector < n) (h : ∀ s ∈ extent.sectors, s < n) :
    Settles n store K (extent.header.store sector) (.ok ()) (extent.header.writes sector) := by
  apply Header.settles_store hs
  intro s hmem
  have : extent.header.indexSectors = extent.index := extent.indexSectors_chain
  rw [this] at hmem
  exact h s (extent.mem_sectors.mpr (.inl hmem))

/-- Loading reads back what was stored. -/
theorem runs_load (hs : sector < n) (h : ∀ s ∈ extent.sectors, s < n)
    (stored : extent.StoredAt store sector) :
    Runs n store (Header.load sector) (.ok extent.header) [] := by
  obtain ⟨first, second, third⟩ := extent.header.words_toSector
  have size := extent.size_lt
  have countLt : extent.count < Word.sectorLimit := by
    have := Size.units_mul_lt (show 0 < sectorSize by decide) extent.size
    simp only [count, Word.sectorLimit, sectorSize] at *
    omega
  have length : (UInt32.ofNat extent.header.length).toNat = extent.size :=
    Word.toNat_ofNat_of_lt size
  have sectorCount : (UInt32.ofNat extent.header.sectorCount).toNat = extent.count :=
    Word.toNat_ofNat_of_lt countLt
  have head : Word.sector? (Word.ofSector? extent.header.chain.head?) = extent.sectors.head? := by
    have : extent.header.chain.head? = extent.sectors.head? := Chain.head?_deal _
    rw [this]
    exact Word.sector?_ofSector? fun s hm => extent.sector_lt s (List.mem_of_mem_head? hm)
  have fits : extent.size + sectorSize < Size.limit := by
    simp only [Word.sectorLimit, sectorSize, Size.limit] at *
    omega
  have blocksFit : extent.count + slotsPerBlock < Size.limit := by
    simp only [Word.sectorLimit, slotsPerBlock, Size.limit] at *
    omega
  have short : ¬ 0x80000000 ≤ extent.size := Nat.not_le.mpr size
  unfold Header.load
  refine .andThen (.read hs) ?_
  simp only [stored.header, first, second, third, length, sectorCount, head]
  refine .guardPasses short (.andThen (a := extent.count) ?_ (.guardPasses (not_not.mpr rfl) ?_))
  · rw [Size.ceilDiv_of_lt fits]
    exact .lift _
  · refine .andThen (a := Size.units extent.count slotsPerBlock) ?_ (.andThen ?_ (.done _))
    · rw [Chain.blocksFor, Size.ceilDiv_of_lt blocksFit]
      exact .lift _
    · exact Chain.runs_load extent.sector_lt
        (fun s hm => h s (extent.mem_sectors.mpr (.inl hm))) stored.blocks
        (Nat.le_of_eq extent.length_blocks)

end Extent

end SectorFS
