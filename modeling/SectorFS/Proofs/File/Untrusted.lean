import SectorFS.Proofs.Disk.Reads
import SectorFS.Proofs.FreeMap.Claims
import SectorFS.Proofs.FreeMap.Stored
import SectorFS.Proofs.Word

/-!
# Files on an arbitrary disk

Nothing is known here of the bytes on the disk or of the requests that it serves. A header is
accepted or refused, and an accepted one has sizes that fit together (`Header.asks_load`); its chain
may still miss sectors. A file is read as far as its chain leads: `File.asks_readPieces` says which
sectors are read and, when the chain ends too early, at which of them. `FreeMap.asks_load` says the
same for a file of the length that a free map has.
-/

namespace SectorFS

/-- What was found is good, or the layout was refused. -/
def Accepts (good : α → Prop) : Except Failure α → Prop
  | .ok a => good a
  | .error e => ∃ cause, e = .error (.invalidLayout cause)

variable {disk disk' : Disk}

/-! ## Headers -/

/-- Links are followed up to the limit, wherever they lead. -/
theorem Chain.asks_loadFrom (few : disk.sectorCount < Disk.countLimit) (limit : Nat)
    (before : List StoredBlock) (left : Nat) (next : Option Nat) :
    Asks disk (loadFrom limit before left next) fun result _ =>
      Accepts (fun chain => chain.blocks.length ≤ before.length + left) result := by
  induction left generalizing disk before next with
  | zero =>
    cases next with
    | none => exact .done (by simp [Accepts])
    | some sector => exact .refuse ⟨_, rfl⟩
  | succ left ih =>
    cases next with
    | none => exact .done (by simp [Accepts])
    | some sector =>
      rw [loadFrom]
      refine .step (.read (P := fun result _ => Accepts (fun _ => True) result) few
        fun _ _ => trivial) (fun data ss middle _ reads _ => ?_) fun _ _ => id
      have rest := ih (reads.few few) (⟨sector, .ofSector data⟩ :: before)
        (IndexBlock.ofSector data).next?
      rwa [List.length_cons, Nat.add_assoc, Nat.add_comm 1 left] at rest

namespace Header

/-- The length that the record at the front of a sector states. -/
def recordedLength (sector : Sector) : Nat := ((Word.decode sector.bytes).toArray.getD 0 0).toNat

/-- An accepted header has the recorded length, and its other sizes go with it. -/
structure Fits (header : Header) (sector : Sector) : Prop where
  length_eq : header.length = recordedLength sector
  length_lt : header.length < Word.sectorLimit
  sectorCount_eq : header.sectorCount = Size.units header.length sectorSize
  blocks_le : header.chain.blocks.length ≤ Size.units header.sectorCount slotsPerBlock

/-- Whatever the sector holds, it is accepted as a header that fits, or refused. -/
theorem asks_load (few : disk.sectorCount < Disk.countLimit) (sector : Nat) :
    Asks disk (load sector) fun result _ => Accepts (·.Fits (disk.store sector)) result := by
  unfold load
  refine .step (.read (P := fun result _ => result = .ok (disk.store sector)) few
    fun _ _ => rfl) (fun data ss middle _ reads same => ?_) fun _ _ => nofun
  obtain rfl := Except.ok.inj same
  generalize hwords : (Word.decode (disk.store sector).bytes).toArray = words
  have recorded : (words.getD 0 0).toNat = recordedLength (disk.store sector) := by
    rw [recordedLength, hwords]
  refine .guard (fun _ => ⟨_, rfl⟩) fun short => ?_
  have short : (words.getD 0 0).toNat < Word.sectorLimit := Nat.not_le.mp short
  have size : (words.getD 0 0).toNat + sectorSize < Size.limit := by
    simp only [Word.sectorLimit, sectorSize, Size.limit] at *
    omega
  refine .andThen (Size.ceilDiv_of_lt size) (.guard (fun _ => ⟨_, rfl⟩) fun same => ?_)
  have same : (words.getD 1 0).toNat = Size.units (words.getD 0 0).toNat sectorSize :=
    not_not.mp same
  have count : (words.getD 1 0).toNat + slotsPerBlock < Size.limit := by
    have := (words.getD 1 0).toNat_lt
    simp only [slotsPerBlock, Size.limit] at *
    omega
  refine .andThen (Size.ceilDiv_of_lt count) ?_
  refine .step (Chain.asks_loadFrom (reads.few few) _ [] _ _) (fun chain _ _ _ _ bound => ?_)
    fun _ _ => id
  rw [List.length_nil, Nat.zero_add] at bound
  exact .done ⟨recorded, short, same, bound⟩

/-- The chain leads to the sectors `data`, in the places of the file's sectors from `first` on. -/
def Reaches (header : Header) (first : Nat) (data : List Nat) : Prop :=
  ∀ i s, data[i]? = some s → header.sectorAt ((first + i) * sectorSize) = .ok s

theorem reaches_nil (header : Header) (first : Nat) : header.Reaches first [] := by
  simp [Reaches]

theorem reaches_cons {header : Header} {first s : Nat} {data : List Nat} :
    header.Reaches first (s :: data) ↔
      header.sectorAt (first * sectorSize) = .ok s ∧ header.Reaches (first + 1) data := by
  constructor
  · intro h
    refine ⟨h 0 s rfl, fun i t ht => ?_⟩
    rw [Nat.add_assoc, Nat.add_comm 1]
    exact h (i + 1) t ht
  · rintro ⟨head, tail⟩ (_ | i) t ht
    · obtain rfl := Option.some.inj ht
      exact head
    · have := tail i t ht
      rwa [Nat.add_assoc, Nat.add_comm 1] at this

end Header

/-! ## Data -/

/-- The pieces from the front of a sector on. -/
theorem Piece.cover_aligned (index count : Nat) :
    cover (index * sectorSize) count =
      if count = 0 then []
      else ⟨index, 0, min count sectorSize⟩ :: cover ((index + 1) * sectorSize)
        (count - sectorSize) := by
  have front : index * sectorSize % sectorSize = 0 := Nat.mul_mod_left ..
  rw [cover]
  by_cases hz : count = 0
  · rw [dif_pos hz, if_pos hz]
  · have here : index * sectorSize / sectorSize = index := Nat.mul_div_cancel _ (by decide)
    rw [dif_neg hz, if_neg hz, front, here]
    simp only [Nat.sub_zero]
    congr 1
    by_cases last : count ≤ sectorSize
    · rw [Nat.min_eq_left last, Nat.sub_self, Nat.sub_eq_zero_of_le last]
      rw [cover, cover, dif_pos rfl, dif_pos rfl]
    · rw [Nat.min_eq_right (by omega), Nat.succ_mul]

theorem Store.bytes_cons (store : Store) (s : Nat) (data : List Nat) :
    store.bytes (s :: data) = (store s).bytes ++ store.bytes data :=
  List.flatMap_cons

/-- What there is to be found of the `count` bytes from the file's sector `first` on: the bytes of
the sectors that the chain leads to, or the first place that it does not lead to. All sectors up
to there are read. -/
def Header.Finds (header : Header) (disk : Disk) (first count : Nat)
    (result : Except Failure (List UInt8)) (disk' : Disk) : Prop :=
  ∃ data, header.Reaches first data ∧ disk.Reads data disk' ∧
    match result with
    | .ok bytes =>
      data.length = Size.units count sectorSize ∧ bytes = (disk.store.bytes data).take count
    | .error e =>
      data.length < Size.units count sectorSize ∧
        header.sectorAt ((first + data.length) * sectorSize) = .error e

namespace Header.Finds

variable {header : Header} {middle : Disk} {first count s : Nat}

/-- The chain does not even lead to the first sector. -/
theorem missing {e : Failure} (hz : count ≠ 0)
    (missing : header.sectorAt (first * sectorSize) = .error e) :
    header.Finds disk first count (.error e) disk := by
  refine ⟨[], header.reaches_nil first, .done disk, ?_, by simpa using missing⟩
  rw [Size.units_of_pos (show 0 < sectorSize by decide) hz]
  exact Nat.succ_pos _

/-- A first sector, and what is found behind it. -/
theorem next {result : Except Failure (List UInt8)} (hz : count ≠ 0)
    (head : header.sectorAt (first * sectorSize) = .ok s) (read : disk.Reads [s] middle)
    (rest : header.Finds middle (first + 1) (count - sectorSize) result disk') :
    header.Finds disk first count (result.map ((disk.store s).bytes.take count ++ ·)) disk' := by
  obtain ⟨data, reaches, reads, found⟩ := rest
  refine ⟨s :: data, Header.reaches_cons.mpr ⟨head, reaches⟩, read.trans reads, ?_⟩
  rw [Size.units_of_pos (show 0 < sectorSize by decide) hz, List.length_cons]
  cases result with
  | ok bytes =>
    obtain ⟨length, same⟩ := found
    refine ⟨congrArg (· + 1) length, ?_⟩
    rw [Store.bytes_cons, List.take_append, (disk.store s).length_bytes, same,
      read.unwritten.store_eq]
  | error e =>
    obtain ⟨length, missing⟩ := found
    refine ⟨Nat.succ_lt_succ length, ?_⟩
    rwa [Nat.add_assoc, Nat.add_comm 1] at missing

end Header.Finds

namespace File

theorem take_min_bytes (sector : Sector) (count : Nat) :
    sector.bytes.take (min count sectorSize) = sector.bytes.take count := by
  rw [← sector.length_bytes, ← List.take_eq_take_min]

theorem asks_readPieces (few : disk.sectorCount < Disk.countLimit) (file : File)
    (first count : Nat) :
    Asks disk (file.readPieces (Piece.cover (first * sectorSize) count))
      (file.header.Finds disk first count) := by
  induction count using Nat.strongRecOn generalizing disk first with
  | ind count ih =>
    rw [Piece.cover_aligned]
    by_cases hz : count = 0
    · rw [if_pos hz, hz]
      exact .done ⟨[], file.header.reaches_nil first, .done disk,
        (Size.units_zero (by decide)).symm, rfl⟩
    · rw [if_neg hz, readPieces]
      have positive : 0 < sectorSize := by decide
      refine .step (P := fun result disk' => disk' = disk ∧
        result = file.header.sectorAt (first * sectorSize)) (.lift ⟨rfl, rfl⟩)
        (fun s _ middle _ _ place => ?_) fun e disk' place => ?_
      · obtain ⟨rfl, head⟩ := place
        refine .step (P := fun result disk' => result = .ok (middle.store s) ∧
          middle.Reads [s] disk') (.read few fun disk' read => ⟨rfl, read⟩)
          (fun data _ disk' _ _ read => ?_) fun e disk' read => absurd read.1 (by simp)
        obtain ⟨same, read⟩ := read
        obtain rfl := Except.ok.inj same
        refine .step (ih (count - sectorSize) (by omega) (read.few few) (first + 1))
          (fun bytes _ _ _ _ found => .done ?_) fun e _ found => ?_
        · rw [List.drop_zero, take_min_bytes]
          exact found.next hz head.symm read
        · exact found.next hz head.symm read
      · obtain ⟨rfl, missing⟩ := place
        exact .missing hz missing.symm

/-- The bytes of the sectors, of which `count` belong to the file. -/
def readAlong : List Nat → Nat → DiskM (List UInt8)
  | [], _ => return []
  | s :: data, count => do
    let sector ← Disk.read s
    return sector.bytes.take count ++ (← readAlong data (count - sectorSize))

/-- Where the chain leads to all sectors of the rest of the file, they are read one by one. -/
theorem readPieces_eq_readAlong {file : File} {first count : Nat} {data : List Nat}
    (reaches : file.header.Reaches first data)
    (length : data.length = Size.units count sectorSize) :
    file.readPieces (Piece.cover (first * sectorSize) count) = readAlong data count := by
  have positive : 0 < sectorSize := by decide
  induction data generalizing first count with
  | nil =>
    have hz : count = 0 := by
      have := Size.le_units_mul positive count
      rw [← length, List.length_nil, Nat.zero_mul] at this
      exact Nat.le_zero.mp this
    rw [Piece.cover_aligned, if_pos hz]
    rfl
  | cons s data ih =>
    have hz : count ≠ 0 := by
      rintro rfl
      rw [Size.units_zero positive] at length
      cases length
    rw [Size.units_of_pos positive hz, List.length_cons] at length
    obtain ⟨head, tail⟩ := Header.reaches_cons.mp reaches
    have place : file.sectorOf ⟨first, 0, min count sectorSize⟩ = .ok s := head
    have part (sector : Sector) : (sector.bytes.drop 0).take (min count sectorSize) =
        sector.bytes.take count := take_min_bytes sector count
    rw [Piece.cover_aligned, if_neg hz, readPieces, place, ih tail (Nat.succ.inj length)]
    simp only [part]
    rfl

/-- The sectors hold the file's bytes. -/
theorem readAlong_of_reads {data : List Nat} (reads : disk.Reads data disk') (count : Nat) :
    readAlong data count disk = .ok ((disk.store.bytes data).take count) disk' := by
  induction reads generalizing count with
  | done disk =>
    rw [Store.bytes, List.flatMap_nil, List.take_nil]
    rfl
  | @next disk sector middle s data disk' read _ ih =>
    have same : sector = disk.store s := Disk.store_of_read read
    have one : disk.Reads [s] middle := .one read
    rw [readAlong, Does.bind_of_ok read, Does.bind_of_ok (ih (count - sectorSize)),
      one.unwritten.store_eq, same, Store.bytes_cons, List.take_append,
      (disk.store s).length_bytes]
    rfl

end File

/-! ## The free map -/

namespace FreeMap

/-- The flag of a sector in the stored form of a map. -/
def marked (bytes : List UInt8) (sector : Nat) : Bool :=
  (bytes[sector / 8]?.getD 0).toNat.testBit (sector % 8)

theorem marked_take {bytes : List UInt8} {sectors s : Nat} (hs : s < sectors) :
    marked (bytes.take (Size.units sectors 8)) s = marked bytes s := by
  have inside : s / 8 < Size.units sectors 8 := by
    rw [Size.lt_units_iff (by decide)]
    omega
  rw [marked, marked, List.getElem?_take_of_lt inside]

/-- Any bytes that are enough are the stored form of some map. -/
theorem exists_ofBytes {sectors : Nat} {bytes : List UInt8}
    (enough : Size.units sectors 8 ≤ bytes.length) (small : sectors + 64 < Size.limit) :
    ∃ map, ofBytes sectors bytes = .ok map ∧ map.sectorCount = sectors ∧
      ∀ s, map.Uses s ↔ s < sectors ∧ marked bytes s = true := by
  refine ⟨⟨.ofFn fun i : Fin sectors =>
    (bytes.toArray.getD (i / 8) 0).toNat.testBit (i % 8)⟩, ?_, Array.size_ofFn, fun s => ?_⟩
  · rw [ofBytes, storedLength, Size.ceilDiv_of_lt (by omega)]
    change (if _ then _ else _) = _
    rw [if_neg (Nat.not_lt.mpr enough), checkCount_of_lt small]
    rfl
  · by_cases hs : s < sectors
    · simp [Uses, marked, hs, Array.getD_eq_getD_getElem?]
    · simp [Uses, hs]

/-- The sectors of a file that is as long as a map hold one. -/
theorem exists_flags {sectors : Nat} {data : List Nat} (store : Store)
    (full : data.length = Size.units (Size.units sectors 8) sectorSize)
    (small : sectors + 64 < Size.limit) :
    let bytes := (store.bytes data).take (Size.units sectors 8)
    ∃ map, ofBytes sectors (bytes ++ List.replicate (Size.units sectors 8 - bytes.length) 0) =
        .ok map ∧ map.sectorCount = sectors ∧
      ∀ s, map.Uses s ↔ s < sectors ∧ marked (store.bytes data) s = true := by
  intro bytes
  have length : bytes.length = Size.units sectors 8 := by
    have := Size.le_units_mul (show 0 < sectorSize by decide) (Size.units sectors 8)
    rw [List.length_take, Store.length_bytes, full]
    exact Nat.min_eq_left this
  obtain ⟨map, run, size, uses⟩ := exists_ofBytes (Nat.le_of_eq length.symm) small
  refine ⟨map, ?_, size, fun s => ?_⟩
  · rw [length, Nat.sub_self, List.replicate_zero, List.append_nil]
    exact run
  · rw [uses]
    exact and_congr_right fun hs => by rw [marked_take hs]

variable {file : File} {sectors : Nat}

theorem readAt_of_length (length : file.length = Size.units sectors 8) :
    file.readAt 0 (Size.units sectors 8) =
      file.readPieces (Piece.cover (0 * sectorSize) (Size.units sectors 8)) := by
  rw [File.readAt, File.clip_eq_min, length, Nat.sub_zero, Nat.min_self, Nat.zero_mul]

/-- A file as long as a map gives one, unless its chain ends too early. -/
theorem asks_load (few : disk.sectorCount < Disk.countLimit)
    (length : file.length = Size.units sectors 8) (small : sectors + 64 < Size.limit) :
    Asks disk (load file sectors) fun result disk' =>
      ∃ data, file.header.Reaches 0 data ∧ disk.Reads data disk' ∧
        match result with
        | .ok map => data.length = Size.units file.length sectorSize ∧
          map.sectorCount = sectors ∧
          ∀ s, map.Uses s ↔ s < sectors ∧ marked (disk.store.bytes data) s = true
        | .error e => data.length < Size.units file.length sectorSize ∧
          file.header.sectorAt (data.length * sectorSize) = .error e := by
  rw [length]
  refine .andThen (Size.ceilDiv_of_lt (by omega)) ?_
  rw [readAt_of_length length]
  refine .step (file.asks_readPieces few 0 _) (fun bytes _ middle _ _ found => ?_)
    fun e disk' found => ?_
  · obtain ⟨data, reaches, reads, full, rfl⟩ := found
    obtain ⟨map, run, size, uses⟩ := exists_flags disk.store full small
    rw [run]
    exact .done ⟨data, reaches, reads, full, size, uses⟩
  · obtain ⟨data, reaches, reads, less, missing⟩ := found
    rw [Nat.zero_add] at missing
    exact ⟨data, reaches, reads, less, missing⟩

/-- A file as long as a map gives one, if its chain leads to all its sectors. -/
theorem load_of_reads (length : file.length = Size.units sectors 8)
    (small : sectors + 64 < Size.limit) {data : List Nat} (reaches : file.header.Reaches 0 data)
    (reads : disk.Reads data disk') (full : data.length = Size.units file.length sectorSize) :
    ∃ map, load file sectors disk = .ok map disk' ∧ map.sectorCount = sectors ∧
      ∀ s, map.Uses s ↔ s < sectors ∧ marked (disk.store.bytes data) s = true := by
  rw [length] at full
  obtain ⟨map, run, size, uses⟩ := exists_flags disk.store full small
  refine ⟨map, ?_, size, uses⟩
  rw [load, storedLength, Size.ceilDiv_of_lt (by omega)]
  change (file.readAt 0 (Size.units sectors 8) >>= _) disk = _
  rw [readAt_of_length length, File.readPieces_eq_readAlong reaches full,
    Does.bind_of_ok (File.readAlong_of_reads reads _), run]
  rfl

end FreeMap

end SectorFS
