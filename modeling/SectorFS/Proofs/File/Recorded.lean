import SectorFS.Proofs.File.Header
import SectorFS.Proofs.File.Untrusted

/-!
# Headers that are loaded from anywhere and stored in place

The sectors of a disk may hold anything, so that links may lead in circles, off the disk, or into
the sector of the header itself. On a disk that refuses no request, loading finds the header that is
recorded there (`Header.RecordedAt`) or fails, and reads no more than the recorded length calls for:
`Header.load_cases`. Storing the header again writes every index block as it was, and of the record
no more can change than what it does not say: `Header.RecordedAt.rewritten`. `Header.load_bounded`
puts both together.
-/

namespace SectorFS

namespace Disk

/-- No request is planned to fail. The medium may hold anything, and may end anywhere. -/
structure Willing (disk : Disk) : Prop where
  read_passes : ∀ seen s, disk.faults.read seen s = false
  write_passes : ∀ seen s, disk.faults.write seen s = false

/-- The sector can be transferred, and the medium has it. -/
structure Readable (disk : Disk) (s : Nat) : Prop where
  check_eq : disk.check s sectorSize = .ok ()
  lt_size : s < disk.image.sectors.size

/-- The disk behind requests to read the sectors, first to last. -/
def asked (disk : Disk) (ss : List Nat) : Disk := { disk with reads := ss.reverse ++ disk.reads }

variable {disk disk' : Disk} {s : Nat}

@[simp] theorem store_asked (disk : Disk) (ss : List Nat) :
    (disk.asked ss).store = disk.store := rfl

@[simp] theorem asked_asked (disk : Disk) (ss ts : List Nat) :
    (disk.asked ss).asked ts = disk.asked (ss ++ ts) := by
  simp [asked]

theorem Willing.asked (willing : disk.Willing) (ss : List Nat) : (disk.asked ss).Willing :=
  ⟨willing.read_passes, willing.write_passes⟩

theorem check_congr (same : disk'.sectorCount = disk.sectorCount) (s size : Nat) :
    disk'.check s size = disk.check s size := by
  simp only [check, same]

/-- Readable sectors are those of a disk of this size over a medium of this size. -/
theorem Readable.congr (h : disk.Readable s) (count : disk'.sectorCount = disk.sectorCount)
    (size : disk'.image.sectors.size = disk.image.sectors.size) : disk'.Readable s where
  check_eq := (check_congr count s sectorSize).trans h.check_eq
  lt_size := Nat.lt_of_lt_of_eq h.lt_size size.symm

@[simp] theorem readable_asked (ss : List Nat) : (disk.asked ss).Readable s ↔ disk.Readable s :=
  ⟨fun h => h.congr rfl rfl, fun h => h.congr rfl rfl⟩

/-- A sector that a word can name lies below the offset limit. -/
theorem readable_of_lt (room : s < disk.sectorCount) (covered : s < disk.image.sectors.size)
    (named : s < Word.sectorLimit) : disk.Readable s where
  lt_size := covered
  check_eq := by
    have offset : Size.mul s sectorSize = .ok (s * sectorSize) := by
      apply Size.mul_of_lt
      simp only [Word.sectorLimit, sectorSize, Size.limit] at *
      omega
    have ends : ¬ offsetLimit < s * sectorSize + sectorSize := by
      simp only [Word.sectorLimit, sectorSize, offsetLimit] at *
      omega
    rw [check, if_neg (Nat.not_le.mpr room)]
    simp only [ne_eq, not_true_eq_false, if_false, offset]
    exact if_neg ends

namespace Willing

variable (willing : disk.Willing)
include willing

theorem read_of_readable (h : disk.Readable s) :
    Disk.read s disk = .ok (disk.store s) (disk.asked [s]) := by
  simp [Disk.read, readInto, willing.read_passes, h.check_eq, Image.sector?_of_lt h.lt_size, store,
    Disk.asked]

theorem read_of_not_readable (h : ¬ disk.Readable s) :
    ∃ e, Disk.read s disk = .error e (disk.asked [s]) := by
  cases checked : disk.check s sectorSize with
  | error e => exact ⟨e, by simp [Disk.read, readInto, willing.read_passes, checked, Disk.asked]⟩
  | ok passed =>
    have beyond : disk.image.sector? s = none :=
      Array.getElem?_eq_none (Nat.le_of_not_lt fun lt => h ⟨checked, lt⟩)
    refine ⟨.error (.io .shortRead), ?_⟩
    simp [Disk.read, readInto, willing.read_passes, checked, beyond, Disk.asked]

/-- Readable sectors are read one after another. -/
theorem reads {ss : List Nat} (h : ∀ s ∈ ss, disk.Readable s) : disk.Reads ss (disk.asked ss) := by
  induction ss generalizing disk with
  | nil => exact .done disk
  | cons s ss ih =>
    obtain ⟨first, h⟩ := List.forall_mem_cons.mp h
    have rest := ih (willing.asked [s]) fun t ht => (readable_asked [s]).mpr (h t ht)
    rw [asked_asked, List.singleton_append] at rest
    exact .next (willing.read_of_readable first) rest

theorem write_of_readable (h : disk.Readable s) (data : Sector) :
    Disk.write s data disk = .ok () (disk.serve (.write s data)) := by
  have check : disk.check s data.bytes.length = .ok () := by
    rw [data.length_bytes]
    exact h.check_eq
  have whole : Sector.ofBytes data.bytes = data := by
    simp [Sector.ofBytes, data.length_bytes, List.take_of_length_le]
  simp [Disk.write, Disk.writeFrom, willing.write_passes, check, whole, serve]

end Willing

/-- A disk of `n` sectors that holds what the store holds. -/
def holding (n : Nat) (store : Store) : Disk :=
  attach ⟨Array.ofFn fun i : Fin n => store i, [], Image.empty.length_tail⟩ n .none

variable {n : Nat}

theorem store_holding (h : s < n) (store : Store) : (holding n store).store s = store s := by
  simp [holding, attach, Disk.store, Image.padded, Image.sector?, h]

theorem readable_holding (h : s < n) (addressable : n * sectorSize ≤ offsetLimit) (store : Store) :
    (holding n store).Readable s := by
  have sound : (holding n store).Sound n := sound_attach addressable Array.size_ofFn
  exact ⟨sound.covers.check h, Nat.lt_of_lt_of_le h sound.covered⟩

end Disk

/-! ## Following links -/

namespace Store

/-- The sectors met on the way along the links from `next` to the first one that leads nowhere. -/
inductive Links (store : Store) : Option Nat → List Nat → Prop where
  | done : Links store none []
  | next {s ss} : Links store (IndexBlock.ofSector (store s)).next? ss →
      Links store (some s) (s :: ss)

variable {store store' : Store} {next : Option Nat} {ss ts : List Nat}

/-- There is one way only. -/
theorem Links.unique (h : store.Links next ss) (h' : store.Links next ts) : ss = ts := by
  induction h generalizing ts with
  | done =>
    cases h'
    rfl
  | next _ ih =>
    cases h' with
    | next rest => rw [ih rest]

/-- Only the sectors on the way matter. -/
theorem Links.congr (h : store.Links next ss) (same : ∀ s ∈ ss, store' s = store s) :
    store'.Links next ss := by
  induction h with
  | done => exact .done
  | next _ ih =>
    obtain ⟨first, rest⟩ := List.forall_mem_cons.mp same
    exact .next (first ▸ ih rest)

/-- The way starts where a word can point to. -/
theorem Links.head? (h : store.Links next ss) : ss.head? = next := by
  cases h <;> rfl

/-- A sector taken for an index block. -/
def block (store : Store) (s : Nat) : StoredBlock := ⟨s, .ofSector (store s)⟩

end Store

variable {disk : Disk}

/-- Following links, one comes to their end, or to a failure that nothing could have avoided. -/
theorem Chain.loadFrom_cases (willing : disk.Willing) (limit : Nat) (before : List StoredBlock)
    (left : Nat) (next : Option Nat) :
    ∃ ss, ss.length ≤ left ∧
      ((disk.store.Links next ss ∧ (∀ s ∈ ss, disk.Readable s) ∧
          loadFrom limit before left next disk =
            .ok ⟨before.reverse ++ ss.map disk.store.block⟩ (disk.asked ss)) ∨
        (∀ ts, disk.store.Links next ts → (∀ s ∈ ts, disk.Readable s) → left < ts.length) ∧
          ∃ e, loadFrom limit before left next disk = .error e (disk.asked ss)) := by
  induction left generalizing disk before next with
  | zero =>
    cases next with
    | none =>
      refine ⟨[], Nat.le_refl _, .inl ⟨.done, by simp, ?_⟩⟩
      simp only [loadFrom, List.map_nil, List.append_nil]
      rfl
    | some s =>
      refine ⟨[], Nat.le_refl _, .inr ⟨?_, _, rfl⟩⟩
      rintro _ ⟨⟩ -
      exact Nat.succ_pos _
  | succ left ih =>
    cases next with
    | none =>
      refine ⟨[], Nat.zero_le _, .inl ⟨.done, by simp, ?_⟩⟩
      simp only [loadFrom, List.map_nil, List.append_nil]
      rfl
    | some s =>
      rw [loadFrom]
      by_cases readable : disk.Readable s
      · rw [Does.bind_of_ok (willing.read_of_readable readable)]
        obtain ⟨ss, le, rest⟩ := ih (willing.asked [s]) (disk.store.block s :: before)
          (IndexBlock.ofSector (disk.store s)).next?
        simp only [Disk.store_asked, Disk.readable_asked, Disk.asked_asked, List.reverse_cons,
          List.append_assoc, List.singleton_append] at rest
        refine ⟨s :: ss, Nat.succ_le_succ le, ?_⟩
        rcases rest with ⟨links, all, loads⟩ | ⟨none, e, fails⟩
        · exact .inl ⟨.next links, List.forall_mem_cons.mpr ⟨readable, all⟩, loads⟩
        · refine .inr ⟨?_, e, fails⟩
          rintro _ (_ | links) all
          exact Nat.succ_lt_succ (none _ links (List.forall_mem_cons.mp all).2)
      · obtain ⟨e, fails⟩ := willing.read_of_not_readable readable
        refine ⟨[s], Nat.succ_le_succ (Nat.zero_le _), .inr ⟨?_, e, Does.bind_of_error fails⟩⟩
        rintro _ (_ | links) all
        exact absurd (all s List.mem_cons_self) readable

/-! ## Headers -/

namespace Header

/-- The number of data sectors that the record at the front of a sector states. -/
def recordedCount (sector : Sector) : Nat := ((Word.decode sector.bytes).toArray.getD 1 0).toNat

/-- Where the record at the front of a sector says that the chain starts. -/
def recordedHead? (sector : Sector) : Option Nat :=
  Word.sector? ((Word.decode sector.bytes).toArray.getD 2 0)

/-- The most index blocks for the recorded length. A length with its top bit set is negative and has
none. -/
def recordedBlocks (sector : Sector) : Nat :=
  if recordedLength sector < Word.sectorLimit then
    Size.units (Size.units (recordedLength sector) sectorSize) slotsPerBlock
  else 0

/-- The disk records the header: its sizes in the record, which fit together, and its blocks along
the links from there on, no more of them than the length calls for. -/
structure RecordedAt (header : Header) (disk : Disk) (sector : Nat) : Prop
    extends header.Fits (disk.store sector) where
  readable : disk.Readable sector
  count_eq : recordedCount (disk.store sector) = header.sectorCount
  links : disk.store.Links (recordedHead? (disk.store sector)) header.indexSectors
  readable_index : ∀ s ∈ header.indexSectors, disk.Readable s
  blocks_eq : header.chain.blocks = header.indexSectors.map disk.store.block

variable {header : Header} {sector : Nat}

theorem RecordedAt.unique {header' : Header} (h : header.RecordedAt disk sector)
    (h' : header'.RecordedAt disk sector) : header = header' := by
  have index : header.indexSectors = header'.indexSectors := h.links.unique h'.links
  have blocks : header.chain.blocks = header'.chain.blocks := by
    rw [h.blocks_eq, h'.blocks_eq, index]
  have length : header.length = header'.length := h.length_eq.trans h'.length_eq.symm
  have count : header.sectorCount = header'.sectorCount := h.count_eq.symm.trans h'.count_eq
  obtain ⟨_, _, ⟨_⟩⟩ := header
  obtain ⟨_, _, ⟨_⟩⟩ := header'
  simp_all

theorem indexSectors_map_block (length count : Nat) (store : Store) (ss : List Nat) :
    indexSectors ⟨length, count, ⟨ss.map store.block⟩⟩ = ss := by
  have same : (fun stored : StoredBlock => stored.sector) ∘ store.block = id := rfl
  rw [indexSectors, Chain.indexSectors, List.map_map, same, List.map_id]

/-- The sizes in the record are those of a file. -/
def Sized (sector : Sector) : Prop :=
  recordedLength sector < Word.sectorLimit ∧
    recordedCount sector = Size.units (recordedLength sector) sectorSize

theorem recordedBlocks_of_sized {data : Sector} (sized : Sized data) :
    recordedBlocks data = Size.units (recordedCount data) slotsPerBlock := by
  rw [recordedBlocks, if_pos sized.1, sized.2]

/-- Why a record is refused. -/
def refused (sector : Nat) (data : Sector) : Failure :=
  let words := (Word.decode data.bytes).toArray
  .error (.invalidLayout (.headerSizes sector (Word.toSigned (words.getD 0 0))
    (Word.toSigned (words.getD 1 0))))

instance (data : Sector) : Decidable (Sized data) := by
  unfold Sized
  infer_instance

/-- A record is refused, or its chain decides. -/
theorem load_eq (sector : Nat) :
    load sector = Disk.read sector >>= fun data =>
      if Sized data then
        (fun chain => ⟨recordedLength data, recordedCount data, chain⟩) <$>
          Chain.load (recordedHead? data) (recordedBlocks data)
      else throw (refused sector data) := by
  unfold load
  congr
  funext data
  by_cases negative : 0x80000000 ≤ recordedLength data
  · have unsized : ¬ Sized data := fun sized => Nat.not_le.mpr sized.1 negative
    rw [if_neg unsized]
    exact if_pos negative
  have fits : recordedLength data + sectorSize < Size.limit := by
    simp only [sectorSize, Size.limit]
    omega
  have few : recordedCount data + slotsPerBlock < Size.limit := by
    have : recordedCount data < 0x100000000 := UInt32.toNat_lt _
    simp only [slotsPerBlock, Size.limit]
    omega
  have length := Size.ceilDiv_of_lt fits
  have blocks : Chain.blocksFor (recordedCount data) = _ := Size.ceilDiv_of_lt few
  rw [recordedLength] at negative length
  rw [recordedCount] at blocks
  simp only [if_neg negative, length, blocks]
  by_cases covers : recordedCount data = Size.units (recordedLength data) sectorSize
  · have sized : Sized data := ⟨Nat.not_le.mp negative, covers⟩
    rw [if_pos sized, recordedBlocks_of_sized sized, map_eq_pure_bind]
    exact if_neg (not_not.mpr covers)
  · rw [if_neg fun sized => covers sized.2]
    exact if_pos covers

/-- Loading finds the header that is recorded, or fails where none is. -/
theorem load_cases (willing : disk.Willing) (sector : Nat) :
    ∃ ss, ss.length ≤ 1 + recordedBlocks (disk.store sector) ∧
      ((∃ header, header.RecordedAt disk sector ∧
          load sector disk = .ok header (disk.asked ss)) ∨
        (∀ header : Header, ¬ header.RecordedAt disk sector) ∧
          ∃ e, load sector disk = .error e (disk.asked ss)) := by
  rw [load_eq]
  by_cases readable : disk.Readable sector
  case neg =>
    obtain ⟨e, fails⟩ := willing.read_of_not_readable readable
    exact ⟨[sector], Nat.le_add_right .., .inr ⟨fun header h => readable h.readable, e,
      Does.bind_of_error fails⟩⟩
  rw [Does.bind_of_ok (willing.read_of_readable readable)]
  by_cases sized : Sized (disk.store sector)
  case neg =>
    rw [if_neg sized]
    refine ⟨[sector], Nat.le_add_right .., .inr ⟨fun header h => sized ?_, _, rfl⟩⟩
    exact ⟨h.length_eq ▸ h.length_lt, by rw [h.count_eq, h.sectorCount_eq, h.length_eq]⟩
  rw [if_pos sized, Chain.load, map_eq_pure_bind]
  have walk := Chain.loadFrom_cases (willing.asked [sector]) (recordedBlocks (disk.store sector)) []
    (recordedBlocks (disk.store sector)) (recordedHead? (disk.store sector))
  simp only [Disk.store_asked, Disk.readable_asked, Disk.asked_asked, List.reverse_nil,
    List.nil_append] at walk
  obtain ⟨ss, le, ⟨links, all, loads⟩ | ⟨none, e, fails⟩⟩ := walk
  · refine ⟨sector :: ss, by rw [List.length_cons]; omega, .inl ⟨_, ?_, Does.bind_of_ok loads⟩⟩
    have index := indexSectors_map_block (recordedLength (disk.store sector))
      (recordedCount (disk.store sector)) disk.store ss
    constructor
    case readable => exact readable
    case count_eq => rfl
    case links => rwa [index]
    case readable_index => rwa [index]
    case blocks_eq => rw [index]
    case toFits =>
      constructor
      case length_eq => rfl
      case length_lt => exact sized.1
      case sectorCount_eq => exact sized.2
      case blocks_le => rwa [List.length_map, ← recordedBlocks_of_sized sized]
  · refine ⟨sector :: ss, by rw [List.length_cons]; omega, .inr ⟨fun header h => ?_, e,
      Does.bind_of_error fails⟩⟩
    have long := none _ h.links h.readable_index
    have bound := h.blocks_le
    rw [h.blocks_eq, List.length_map, ← h.count_eq, ← recordedBlocks_of_sized sized] at bound
    omega

theorem load_eq_ok_iff (willing : disk.Willing) {header : Header} :
    (∃ loaded, load sector disk = .ok header loaded) ↔ header.RecordedAt disk sector := by
  obtain ⟨ss, -, ⟨header', recorded, loads⟩ | ⟨none, e, fails⟩⟩ := load_cases willing sector
  · constructor
    · rintro ⟨loaded, loads'⟩
      cases loads.symm.trans loads'
      exact recorded
    · intro recorded'
      obtain rfl := recorded.unique recorded'
      exact ⟨_, loads⟩
  · constructor
    · rintro ⟨loaded, loads⟩
      cases fails.symm.trans loads
    · intro recorded
      exact absurd recorded (none header)

end Header

/-! ## Writing back -/

/-- A sector that is only ever written what it is to hold comes to hold it. -/
theorem Store.after_apply_of_forall_eq {ws : Writes} {store : Store} {t : Nat} {data : Sector}
    (same : ∀ w ∈ ws, w.1 = t → w.2 = data) (there : t ∈ ws.map Prod.fst ∨ store t = data) :
    store.after ws t = data := by
  induction ws generalizing store with
  | nil => exact there.resolve_left (by simp)
  | cons w ws ih =>
    obtain ⟨first, rest⟩ := List.forall_mem_cons.mp same
    rw [after_cons]
    apply ih rest
    by_cases here : t = w.1
    · right
      rw [here, Function.update_self]
      exact first here.symm
    · rw [Function.update_of_ne here]
      exact there.imp_left fun mem => (List.mem_cons.mp mem).resolve_left here

namespace Disk

/-- Nothing but sectors that the medium has was written. -/
abbrev Rewrote (disk : Disk) (ws : Writes) (disk' : Disk) : Prop :=
  Wrote disk.image.sectors.size disk ws disk'

namespace Rewrote

variable {disk' : Disk} {ws : Writes} (h : disk.Rewrote ws disk')
include h

theorem size_eq : disk'.image.sectors.size = disk.image.sectors.size := by
  rw [h.image_eq]
  exact (foldl_write (Nat.le_refl _) h.in_range).1

theorem store_eq : disk'.store = disk.store.after ws := by
  rw [store, h.image_eq]
  exact (foldl_write (Nat.le_refl _) h.in_range).2

theorem tail_eq : disk'.image.tail = disk.image.tail := by
  rw [h.image_eq]
  exact tail_foldl_write (Nat.le_refl _) h.in_range

theorem willing (willing : disk.Willing) : disk'.Willing where
  read_passes := by rw [h.faults_eq]; exact willing.read_passes
  write_passes := by rw [h.faults_eq]; exact willing.write_passes

theorem readable {s : Nat} (readable : disk.Readable s) : disk'.Readable s :=
  readable.congr h.sectorCount_eq h.size_eq

theorem bytesAt_eq {t : Nat} (same : disk'.store t = disk.store t) :
    disk'.image.bytesAt t = disk.image.bytesAt t := by
  by_cases there : t < disk.image.sectors.size
  · have there' := Nat.lt_of_lt_of_eq there h.size_eq.symm
    rw [Image.bytesAt, Image.bytesAt, Image.sector?_of_lt there, Image.sector?_of_lt there']
    exact congrArg Sector.bytes same
  · have beyond : disk.image.sector? t = none := Array.getElem?_eq_none (Nat.le_of_not_lt there)
    have beyond' : disk'.image.sector? t = none :=
      Array.getElem?_eq_none (h.size_eq ▸ Nat.le_of_not_lt there)
    rw [Image.bytesAt, Image.bytesAt, beyond, beyond', h.size_eq, h.tail_eq]

end Rewrote

/-- Readable sectors can be written, one after another. -/
theorem Willing.forM_write (willing : disk.Willing) {ws : Writes}
    (readable : ∀ w ∈ ws, disk.Readable w.1) :
    ∃ disk', (ws.forM fun w => Disk.write w.1 w.2) disk = .ok () disk' ∧ disk.Rewrote ws disk' := by
  induction ws generalizing disk with
  | nil => exact ⟨disk, rfl, .refl _ disk⟩
  | cons w ws ih =>
    obtain ⟨first, rest⟩ := List.forall_mem_cons.mp readable
    have wrote : disk.Rewrote [w] (disk.serve (.write w.1 w.2)) :=
      wrote_serve (a := .write w.1 w.2) first.lt_size
    obtain ⟨disk', ends, more⟩ := ih (wrote.willing willing) fun v hv =>
      wrote.readable (rest v hv)
    rw [Rewrote, wrote.size_eq] at more
    exact ⟨disk', (Does.bind_of_ok (willing.write_of_readable first w.2)).trans ends,
      wrote.trans more⟩

end Disk

namespace Header

variable {header : Header} {sector : Nat}

theorem store_eq (header : Header) (sector : Nat) :
    header.store sector = (header.writes sector).forM fun w => Disk.write w.1 w.2 := by
  rw [store, writes, Chain.writes, Chain.store, List.forM_eq_forM, List.forM_eq_forM,
    List.forM_cons, List.forM_map]

/-- The record of a header states its sizes and where its chain starts. -/
theorem recorded_toSector {data : Sector} (fits : header.Fits data)
    (head : ∀ s ∈ header.chain.head?, s < Word.sectorLimit) :
    recordedLength header.toSector = header.length ∧
      recordedCount header.toSector = header.sectorCount ∧
      recordedHead? header.toSector = header.chain.head? := by
  obtain ⟨first, second, third⟩ := header.words_toSector
  have short := fits.length_lt
  have few : header.sectorCount < Word.sectorLimit := by
    have := Size.units_mul_lt (show 0 < sectorSize by decide) header.length
    rw [← fits.sectorCount_eq] at this
    simp only [Word.sectorLimit, sectorSize] at *
    omega
  rw [recordedLength, recordedCount, recordedHead?, first, second, third]
  exact ⟨Word.toNat_ofNat_of_lt short, Word.toNat_ofNat_of_lt few, Word.sector?_ofSector? head⟩

namespace RecordedAt

variable (h : header.RecordedAt disk sector)
include h

theorem head?_eq : header.chain.head? = recordedHead? (disk.store sector) := by
  rw [← h.links.head?, Chain.head?, indexSectors, Chain.indexSectors, List.head?_map]

theorem head?_lt : ∀ s ∈ header.chain.head?, s < Word.sectorLimit := by
  intro s hs
  rw [h.head?_eq] at hs
  exact Word.lt_of_sector? hs

/-- The blocks of the chain hold already what is written to them. -/
theorem chain_writes : ∀ w ∈ header.chain.writes, w.2 = disk.store w.1 := by
  intro w hw
  rw [Chain.writes, h.blocks_eq, List.map_map] at hw
  obtain ⟨s, -, rfl⟩ := List.mem_map.mp hw
  exact IndexBlock.toSector_ofSector _

/-- Storing the header changes no sector but its own, and not even this one if it is a block of the
chain as well. -/
theorem after_writes {t : Nat} (spared : t ≠ sector ∨ sector ∈ header.indexSectors) :
    disk.store.after (header.writes sector) t = disk.store t := by
  rw [writes, Store.after_cons]
  apply Store.after_apply_of_forall_eq
  · rintro w hw rfl
    exact h.chain_writes w hw
  · rw [Chain.map_fst_writes]
    by_cases here : t = sector
    · subst here
      exact .inl (spared.resolve_left (fun ne => ne rfl))
    · exact .inr (Function.update_of_ne here ..)

/-- What is recorded matters, and not how. -/
theorem congr {disk' : Disk} (fits : header.Fits (disk'.store sector))
    (count : recordedCount (disk'.store sector) = header.sectorCount)
    (head : recordedHead? (disk'.store sector) = recordedHead? (disk.store sector))
    (index : ∀ s ∈ header.indexSectors, disk'.store s = disk.store s)
    (readable : ∀ s, disk.Readable s → disk'.Readable s) : header.RecordedAt disk' sector where
  toFits := fits
  readable := readable _ h.readable
  count_eq := count
  links := head ▸ h.links.congr index
  readable_index s hs := readable s (h.readable_index s hs)
  blocks_eq := by
    rw [h.blocks_eq]
    apply List.map_congr_left
    intro s hs
    rw [Store.block, Store.block, index s hs]

/-- A header that was stored where it was recorded is recorded there again. -/
theorem rewritten {disk' : Disk} (wrote : disk.Rewrote (header.writes sector) disk') :
    header.RecordedAt disk' sector := by
  have holds := wrote.store_eq
  by_cases inChain : sector ∈ header.indexSectors
  · have same : disk'.store = disk.store := by
      rw [holds]
      exact funext fun t => h.after_writes (.inr inChain)
    exact h.congr (same ▸ h.toFits) (same ▸ h.count_eq) (by rw [same]) (by simp [same])
      fun s => wrote.readable
  · have record : disk'.store sector = header.toSector := by
      rw [holds]
      exact after_writes_apply inChain disk.store
    obtain ⟨length, count, head⟩ := recorded_toSector h.toFits h.head?_lt
    refine h.congr ⟨?_, h.length_lt, h.sectorCount_eq, h.blocks_le⟩ ?_ ?_ ?_
      fun s => wrote.readable
    · rw [record, length]
    · rw [record, count]
    · rw [record, head, h.head?_eq]
    · intro s hs
      rw [holds]
      exact h.after_writes (.inl fun same => inChain (same ▸ hs))

end RecordedAt

/-- Whatever the disk holds and wherever links lead, a header is loaded after a bounded number of
reads, and exactly if one is recorded. Its index blocks are those that the links lead to. Storing it
in its place changes no other sector, and it loads again as it was. -/
theorem load_bounded (willing : disk.Willing) (sector : Nat) :
    ∃ result ss, load sector disk = ending result (disk.asked ss) ∧
      ss.length ≤ 1 + recordedBlocks (disk.store sector) ∧
      (∀ header, result = .ok header ↔ header.RecordedAt disk sector) ∧
      ∀ header, result = .ok header →
        header.sectorCount = Size.units header.length sectorSize ∧
        disk.store.Links (recordedHead? (disk.store sector)) header.indexSectors ∧
        header.indexSectors.length ≤ Size.units header.sectorCount slotsPerBlock ∧
        ∃ stored loaded, header.store sector (disk.asked ss) = .ok () stored ∧
          (∀ t, t ≠ sector → stored.image.bytesAt t = disk.image.bytesAt t) ∧
          load sector stored = .ok header loaded := by
  obtain ⟨ss, few, ⟨header, recorded, loads⟩ | ⟨none, e, fails⟩⟩ := load_cases willing sector
  · refine ⟨.ok header, ss, loads, few, fun header' => ⟨?_, ?_⟩, ?_⟩
    · rintro ⟨⟩
      exact recorded
    · intro recorded'
      rw [recorded.unique recorded']
    rintro _ ⟨⟩
    have blocks : header.indexSectors.length ≤ _ :=
      Nat.le_trans (Nat.le_of_eq (List.length_map ..)) recorded.blocks_le
    have again : header.RecordedAt (disk.asked ss) sector :=
      recorded.congr recorded.toFits recorded.count_eq rfl (fun _ _ => rfl) fun s readable =>
        Disk.readable_asked ss |>.mpr readable
    have readable : ∀ w ∈ header.writes sector, (disk.asked ss).Readable w.1 := by
      intro w hw
      have mem : w.1 ∈ sector :: header.indexSectors :=
        header.map_fst_writes sector ▸ List.mem_map_of_mem hw
      rcases List.mem_cons.mp mem with same | mem
      · exact same ▸ again.readable
      · exact again.readable_index _ mem
    obtain ⟨stored, stores, wrote⟩ := (willing.asked ss).forM_write readable
    obtain ⟨loaded, loads'⟩ :=
      (load_eq_ok_iff (wrote.willing (willing.asked ss))).mpr (again.rewritten wrote)
    refine ⟨recorded.sectorCount_eq, recorded.links, blocks, stored, loaded,
      (congrFun (header.store_eq sector) _).trans stores, fun t other => ?_, loads'⟩
    apply wrote.bytesAt_eq
    rw [wrote.store_eq]
    exact again.after_writes (.inl other)
  · refine ⟨.error e, ss, fails, few, fun header => ⟨nofun, ?_⟩, nofun⟩
    exact fun recorded => absurd recorded (none header)

/-- The header in the first sector of `looped`, which is its own first index block. -/
def looping : Header :=
  ⟨4000, 32, ⟨[Store.block (fun _ => toSector ⟨4000, 32, ⟨[⟨0, .ofSectors none []⟩]⟩⟩) 0,
    ⟨4000, .ofSectors none []⟩]⟩⟩

/-- The length of the first header, taken for a link, leads on to the last sector. -/
def looped : Disk :=
  .holding 4001 fun s => if s = 0 then looping.toSector else (IndexBlock.ofSectors none []).toSector

theorem recordedAt_looped : looping.RecordedAt looped 0 := by
  have first : looped.store 0 = looping.toSector := Disk.store_holding (by decide) _
  have last : looped.store 4000 = (IndexBlock.ofSectors none []).toSector :=
    Disk.store_holding (by decide) _
  have readable (s : Nat) (h : s < 4001) : looped.Readable s :=
    Disk.readable_holding h (by decide) _
  have second : (IndexBlock.ofSector looping.toSector).next? = some 4000 := by decide +kernel
  have links : looped.store.Links (some 0) [0, 4000] := by
    refine .next ?_
    rw [first, second]
    refine .next ?_
    rw [last, IndexBlock.ofSector_toSector]
    exact .done
  have index : looping.indexSectors = [0, 4000] := rfl
  constructor
  case readable => exact readable 0 (by decide)
  case count_eq =>
    rw [first]
    decide +kernel
  case links =>
    rw [first]
    exact links
  case readable_index =>
    rw [index]
    intro s hs
    have : s = 0 ∨ s = 4000 := by simpa using hs
    exact readable s (by omega)
  case blocks_eq =>
    rw [index]
    simp only [List.map_cons, List.map_nil, Store.block, first, last, IndexBlock.ofSector_toSector]
    rfl
  case toFits =>
    constructor
    case length_eq =>
      rw [first]
      decide +kernel
    case length_lt => decide
    case sectorCount_eq => decide
    case blocks_le => decide

/-- A chain that runs through the sector of its own header. -/
theorem load_bounded_looped : looped.Willing ∧ ∃ ss stored loaded, ss.length ≤ 3 ∧
    load 0 looped = .ok looping (looped.asked ss) ∧
    looping.store 0 (looped.asked ss) = .ok () stored ∧
    (∀ t, t ≠ 0 → stored.image.bytesAt t = looped.image.bytesAt t) ∧
    load 0 stored = .ok looping loaded := by
  have willing : looped.Willing := ⟨fun _ _ => rfl, fun _ _ => rfl⟩
  obtain ⟨result, ss, loads, few, recorded, rest⟩ := load_bounded willing 0
  obtain rfl := (recorded looping).mpr recordedAt_looped
  obtain ⟨-, -, -, stored, loaded, stores, others, again⟩ := rest looping rfl
  have bound : recordedBlocks (looped.store 0) = 2 := by
    have sized : Sized (looped.store 0) := ⟨recordedAt_looped.length_eq ▸ by decide, by
      rw [recordedAt_looped.count_eq, ← recordedAt_looped.length_eq]
      decide⟩
    rw [recordedBlocks_of_sized sized, recordedAt_looped.count_eq]
    decide
  rw [bound] at few
  exact ⟨willing, ss, stored, loaded, few, loads, stores, others, again⟩

end Header

end SectorFS
