import SectorFS.Proofs.File.Untrusted
import SectorFS.Volume.Mount

/-!
# Mounting any disk

Mounting is the one place where structures are taken from a disk that may hold anything, and may
fail to hold it. `Disk.Mounts` lists how that ends, and `Volume.mount_ends` says that it always ends
so, without a write, and well whenever the disk is `Mountable`.
-/

namespace SectorFS

/-- The faults of a chain that does not lead to a sector of its file. -/
def Fault.OfChain : Fault → Prop
  | .chainTooShort .. | .emptySlot .. => True
  | _ => False

theorem Header.sectorAt_error {header : Header} {offset : Nat} {e : Failure}
    (h : header.sectorAt offset = .error e) : ∃ fault, e = .fault fault ∧ fault.OfChain := by
  unfold Header.sectorAt Chain.sectorOf at h
  split at h
  · exact ⟨_, (Except.error.inj h).symm, trivial⟩
  · split at h
    · cases h
    · exact ⟨_, (Except.error.inj h).symm, trivial⟩

theorem File.asks_load {disk : Disk} (few : disk.sectorCount < Disk.countLimit) (sector : Nat) :
    Asks disk (File.load sector) fun result disk' =>
      (∃ header, result = .ok ⟨sector, header, 0⟩ ∧ header.Fits (disk.store sector) ∧
        Header.load sector disk = .ok header disk') ∨
      ∃ cause, result = .error (.error (.invalidLayout cause)) := by
  refine .step (Header.asks_load few sector) (fun header _ _ ends _ fits => ?_) ?_
  · exact .done (.inl ⟨header, rfl, fits, ends⟩)
  · rintro _ _ ⟨cause, rfl⟩
    exact .inr ⟨cause, rfl⟩

namespace Disk

variable (disk : Disk) (mapHeader rootHeader : Header)

/-- Both system headers are accepted, and their records state lengths that a free map and a
directory can have. The disk has got to `disk'` by then. -/
structure HasSystemFiles (disk' : Disk) : Prop where
  two_le : 2 ≤ disk.sectorCount
  headers : ∃ middle, Header.load freeMapSector disk = .ok mapHeader middle ∧
    Header.load rootSector middle = .ok rootHeader disk'
  mapLength : Header.recordedLength (disk.store freeMapSector) = Size.units disk.sectorCount 8
  rootLength : Header.recordedLength (disk.store rootSector) ≠ 0 ∧
    slotSize ∣ Header.recordedLength (disk.store rootSector)

/-- The system files are there, the chain of the free map leads to all its sectors, all of `data`
can be read, and the map has both system headers in use. -/
structure Mountable (data : List Nat) (disk' : Disk) : Prop where
  files : ∃ middle, disk.HasSystemFiles mapHeader rootHeader middle ∧ middle.Reads data disk'
  reaches : mapHeader.Reaches 0 data
  length_data : data.length = mapHeader.sectorCount
  marked : FreeMap.marked (disk.store.bytes data) freeMapSector = true ∧
    FreeMap.marked (disk.store.bytes data) rootSector = true

/-- How mounting ends on any disk. -/
inductive Mounts : Except Failure Volume → Disk → Prop where
  | mounted {mapHeader rootHeader data disk'} : disk.Mountable mapHeader rootHeader data disk' →
      Mounts (.ok (.ofSystemFiles disk.sectorCount ⟨freeMapSector, mapHeader, 0⟩
        ⟨rootSector, rootHeader, 0⟩)) disk'
  | refused {cause disk'} : Mounts (.error (.error (.invalidLayout cause))) disk'
  | unreadable {cause disk'} : disk.ReadFails cause disk' →
      Mounts (.error (.error (.io cause))) disk'
  /-- The chain of the free map ends before its last sector. All up to there have been read. -/
  | cutOff {mapHeader rootHeader middle data disk' fault} :
      disk.HasSystemFiles mapHeader rootHeader middle → mapHeader.Reaches 0 data →
      middle.Reads data disk' → data.length < mapHeader.sectorCount →
      mapHeader.sectorAt (data.length * sectorSize) = .error (.fault fault) → fault.OfChain →
      Mounts (.error (.fault fault)) disk'

end Disk

namespace Volume

variable {disk : Disk}

theorem systemSectorsUsed_of_lt {map : FreeMap} (h : rootSector < map.sectorCount) :
    systemSectorsUsed map =
      .ok (decide (map.Uses freeMapSector ∧ map.Uses rootSector)) := by
  have first : freeMapSector < map.sectorCount := Nat.lt_of_le_of_lt (by decide) h
  rw [systemSectorsUsed, FreeMap.isUsed_of_lt first, FreeMap.isUsed_of_lt h]
  by_cases hu : map.Uses freeMapSector <;> simp [hu, bind, Except.bind, pure, Except.pure]

theorem asks_mount (few : disk.sectorCount < Disk.countLimit) :
    Asks disk mount disk.Mounts := by
  have small : disk.sectorCount + 64 < Size.limit := by
    simp only [Disk.countLimit, Size.limit] at *
    omega
  refine .step (P := fun result d => result = .ok disk.sectorCount ∧ disk = d)
    (.count ⟨rfl, rfl⟩) (fun sectors _ _ _ _ h => ?_) fun _ _ h => absurd h.1 (by simp)
  obtain ⟨same, rfl⟩ := h
  obtain rfl := Except.ok.inj same
  refine .guard (fun _ => .refused) fun large => ?_
  have large : rootSector < disk.sectorCount := Nat.not_le.mp large
  refine .step (File.asks_load few _) (fun mapFile _ first _ reads h => ?_) ?_
  case refine_2 =>
    rintro e disk' (⟨_, h, _⟩ | ⟨cause, h⟩) <;> cases h
    exact .refused
  obtain ⟨mapHeader, h, fits, mapEnds⟩ | ⟨_, h⟩ := h <;> cases h
  refine .step (File.asks_load (reads.few few) _) (fun rootFile _ middle _ reads' h => ?_) ?_
  case refine_2 =>
    rintro e disk' (⟨_, h, _⟩ | ⟨cause, h⟩) <;> cases h
    exact .refused
  obtain ⟨rootHeader, h, rootFits, rootEnds⟩ | ⟨_, h⟩ := h <;> cases h
  refine .andThen (Size.ceilDiv_of_lt (by omega)) (.guard (fun _ => .refused) fun mapLength => ?_)
  refine .guard (fun _ => .refused) fun rootLength => ?_
  have mapLength : mapHeader.length = Size.units disk.sectorCount 8 := not_not.mp mapLength
  have rootLength : rootHeader.length ≠ 0 ∧ rootHeader.length % slotSize = 0 := by
    simpa [File.length] using rootLength
  rw [rootFits.length_eq, reads.unwritten.store_eq, ← Nat.dvd_iff_mod_eq_zero] at rootLength
  have files : disk.HasSystemFiles mapHeader rootHeader middle :=
    ⟨large, ⟨first, mapEnds, rootEnds⟩, fits.length_eq.symm.trans mapLength, rootLength⟩
  refine .step (FreeMap.asks_load (reads'.few (reads.few few)) mapLength small)
    (fun map _ disk' _ _ h => ?_) fun e disk' h => ?_
  · obtain ⟨data, reaches, readData, full, size, uses⟩ := h
    rw [systemSectorsUsed_of_lt (by rw [size]; exact large)]
    refine .andThen rfl (.guard (fun _ => .refused) fun marked => .done ?_)
    have marked : map.Uses freeMapSector ∧ map.Uses rootSector := by simpa using marked
    rw [uses, uses, reads'.unwritten.store_eq, reads.unwritten.store_eq] at marked
    exact .mounted ⟨⟨middle, files, readData⟩, reaches, full.trans fits.sectorCount_eq.symm,
      marked.1.2, marked.2.2⟩
  · obtain ⟨data, reaches, readData, less, missing⟩ := h
    obtain ⟨fault, rfl, chain⟩ := Header.sectorAt_error missing
    exact .cutOff files reaches readData (Nat.lt_of_lt_of_eq less fits.sectorCount_eq.symm)
      missing chain

/-- A mountable disk is mounted. -/
theorem mount_of_mountable (few : disk.sectorCount < Disk.countLimit)
    {mapHeader rootHeader : Header} {data : List Nat} {disk' : Disk}
    (h : disk.Mountable mapHeader rootHeader data disk') :
    mount disk = .ok (.ofSystemFiles disk.sectorCount ⟨freeMapSector, mapHeader, 0⟩
      ⟨rootSector, rootHeader, 0⟩) disk' := by
  obtain ⟨middle, files, reads⟩ := h.files
  obtain ⟨first, mapEnds, rootEnds⟩ := files.headers
  have mapFile : File.load freeMapSector disk = .ok ⟨freeMapSector, mapHeader, 0⟩ first :=
    Does.bind_of_ok mapEnds
  have rootFile : File.load rootSector first = .ok ⟨rootSector, rootHeader, 0⟩ middle :=
    Does.bind_of_ok rootEnds
  obtain ⟨⟨ss, readMap⟩, fits⟩ := (Header.asks_load few _).of_ok mapEnds
  have fewFirst := readMap.few few
  obtain ⟨⟨ts, readRoot⟩, rootFits⟩ := (Header.asks_load fewFirst _).of_ok rootEnds
  have small : disk.sectorCount + 64 < Size.limit := by
    simp only [Disk.countLimit, Size.limit] at *
    omega
  have mapLength : File.length ⟨freeMapSector, mapHeader, 0⟩ = Size.units disk.sectorCount 8 :=
    fits.length_eq.trans files.mapLength
  have rootLength : rootHeader.length ≠ 0 ∧ slotSize ∣ rootHeader.length := by
    rw [rootFits.length_eq, readMap.unwritten.store_eq]
    exact files.rootLength
  rw [Nat.dvd_iff_mod_eq_zero] at rootLength
  obtain ⟨map, loaded, size, uses⟩ := FreeMap.load_of_reads mapLength small
    h.reaches reads (h.length_data.trans fits.sectorCount_eq)
  have large : ¬ disk.sectorCount ≤ rootSector := Nat.not_le.mpr files.two_le
  have marked : map.Uses freeMapSector ∧ map.Uses rootSector := by
    rw [uses, uses, readRoot.unwritten.store_eq, readMap.unwritten.store_eq]
    have := files.two_le
    exact ⟨⟨by simp only [freeMapSector]; omega, h.marked.1⟩,
      ⟨Nat.not_le.mp large, h.marked.2⟩⟩
  refine (Does.bind_of_ok (show Disk.count disk = .ok disk.sectorCount disk from rfl)).trans ?_
  refine (congrFun (if_neg large) disk).trans ?_
  refine (Does.bind_of_ok mapFile).trans ?_
  refine (Does.bind_of_ok rootFile).trans ?_
  rw [FreeMap.storedLength, Size.ceilDiv_of_lt (by omega)]
  refine (congrFun (if_neg (not_not.mpr mapLength)) middle).trans ?_
  refine (congrFun (if_neg (by simpa [File.length] using rootLength)) middle).trans ?_
  refine (Does.bind_of_ok loaded).trans ?_
  rw [systemSectorsUsed_of_lt (by omega), decide_eq_true marked]
  rfl

/-- Mounting any disk ends, and writes nothing. It ends well exactly on a mountable disk. -/
theorem mount_ends (few : disk.sectorCount < Disk.countLimit) :
    ∃ result disk', mount disk = ending result disk' ∧ disk.Unwritten disk' ∧
      disk.Mounts result disk' ∧
      ∀ mapHeader rootHeader data after, disk.Mountable mapHeader rootHeader data after →
        disk' = after ∧ result = .ok (.ofSystemFiles disk.sectorCount
          ⟨freeMapSector, mapHeader, 0⟩ ⟨rootSector, rootHeader, 0⟩) := by
  have agrees {result disk'} (ends : mount disk = ending result disk')
      {mapHeader rootHeader data after} (h : disk.Mountable mapHeader rootHeader data after) :
      disk' = after ∧ result = .ok (.ofSystemFiles disk.sectorCount
        ⟨freeMapSector, mapHeader, 0⟩ ⟨rootSector, rootHeader, 0⟩) :=
    (ending_inj (show ending result disk' = ending (.ok _) after from
      ends.symm.trans (mount_of_mountable few h))).symm
  rcases asks_mount few with ⟨result, ss, disk', ends, reads, h⟩ | ⟨cause, disk', ends, fails⟩
  · exact ⟨result, disk', ends, reads.unwritten, h, fun _ _ _ _ => agrees ends⟩
  · exact ⟨.error (.error (.io cause)), disk', ends, fails.unwritten, .unreadable fails,
      fun _ _ _ _ => agrees (show _ = ending (.error _) disk' from ends)⟩

/-- A disk of two sectors with acceptable headers, whose map has no sector to lie in. -/
def chainless : Disk :=
  .attach ⟨#[Header.toSector ⟨1, 1, .empty⟩, Header.toSector ⟨20, 1, .empty⟩], [],
    Image.empty.length_tail⟩ 2 .none

theorem mount_ends_chainless : ∃ disk',
    mount chainless = .error (.fault (.chainTooShort 0 0 0)) disk' ∧ chainless.Unwritten disk' ∧
      chainless.Mounts (.error (.fault (.chainTooShort 0 0 0))) disk' := by
  obtain ⟨result, disk', ends, unwritten, mounts, -⟩ := mount_ends
    (show chainless.sectorCount < Disk.countLimit by decide)
  have failure : (match mount chainless with
      | .ok _ _ => none
      | .error e _ => some e) = some (.fault (.chainTooShort 0 0 0)) := by decide +kernel
  rw [ends] at failure
  cases result with
  | ok volume => cases failure
  | error e =>
    obtain rfl := Option.some.inj failure
    exact ⟨disk', ends, unwritten, mounts⟩

end Volume

end SectorFS
