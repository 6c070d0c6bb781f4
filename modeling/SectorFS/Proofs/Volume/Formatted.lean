import SectorFS.Proofs.Volume.Ownership
import SectorFS.Proofs.Volume.Remount

/-!
# Formatted disks

Formatting fails below fifteen sectors, before anything is written. From there on it succeeds on
every sound disk, and `Disk.Formatted` says what the disk shows then: the two system files fill the
first `SystemLayout.used n` sectors, and formatting writes to none behind them.
-/

namespace SectorFS

/-- The volume lies empty on the disk of `n` sectors. -/
structure Disk.Formatted (disk : Disk) (n : Nat) (volume : Volume) : Prop where
  files : ∃ mapHeader rootHeader,
    disk.header? freeMapSector = some mapHeader ∧ mapHeader.length = Size.units n 8 ∧
    disk.header? rootSector = some rootHeader ∧ rootHeader.length = 1280 ∧
    (mapHeader.owned freeMapSector ++ rootHeader.owned rootSector).Perm
      (List.range (SystemLayout.used n)) ∧
    volume = .ofSystemFiles n ⟨freeMapSector, mapHeader, 0⟩ ⟨rootSector, rootHeader, 0⟩
  root : ∃ dir, disk.table? rootSector = some dir ∧ dir.capacity = directoryCapacity ∧
    ∀ slot ∈ dir.slots, slot.isUsed = false
  map : ∃ map, disk.freeMap? = some map ∧ map.sectorCount = n ∧
    ∀ s, map.isUsed s = .ok true ↔ s < SystemLayout.used n
  free : ∃ count disk', volume.freeCount disk = .ok count disk' ∧ count + SystemLayout.used n = n
  mounts : ∃ disk', Volume.mount disk = .ok volume disk'

variable {n : Nat} {disk : Disk}

/-- A disk with the initial catalog and no more is formatted. -/
theorem Catalog.LaidOut.formatted {map : FreeMap} {mapExtent rootExtent : Extent}
    (l : (initial mapExtent rootExtent).LaidOut n disk.store map) (sound : disk.Sound n)
    (full : map.FullBelow (SystemLayout.used n))
    (perm : (mapExtent.owned freeMapSector ++ rootExtent.owned rootSector).Perm
      (List.range (SystemLayout.used n))) :
    disk.Formatted n (.ofSystemFiles n ⟨freeMapSector, mapExtent.header, 0⟩
      ⟨rootSector, rootExtent.header, 0⟩) := by
  have known : (Volume.ofSystemFiles n ⟨freeMapSector, mapExtent.header, 0⟩
      ⟨rootSector, rootExtent.header, 0⟩).Over (initial mapExtent rootExtent) n :=
    over_ofSystemFiles initial_map initial_root
  obtain ⟨extent, hmap, mapSize⟩ := l.valid.map
  obtain rfl := extent_unique initial_map hmap
  obtain ⟨-, -, rootSize⟩ := l.valid.directory _ _ _ initial_root
  constructor
  case files =>
    exact ⟨_, _, l.header?_eq sound hmap, mapSize, l.header?_eq sound initial_root, rootSize,
      ((mapExtent.owned_header _).append (rootExtent.owned_header _)).trans perm, rfl⟩
  case root =>
    refine ⟨.new directoryCapacity, l.table?_eq sound rfl, Directory.capacity_new _, ?_⟩
    intro slot h
    rw [List.eq_of_mem_replicate h]
    rfl
  case map =>
    exact ⟨map, l.freeMap?_eq sound, l.count, fun s => by
      rw [FreeMap.isUsed_eq_ok_true_iff, full]⟩
  case free =>
    obtain ⟨disk', ends, -⟩ := (runs_freeCount l known).ends sound
    refine ⟨map.freeCount, disk', ends, ?_⟩
    have fits := full.le
    rw [l.count] at fits
    rw [full.freeCount_eq, l.count]
    omega
  case mounts =>
    obtain ⟨volume, runs, known', none, one⟩ := runs_mount l
    obtain rfl := known.eq_fresh known' none one
    obtain ⟨disk', ends, -⟩ := runs.ends sound
    exact ⟨disk', ends⟩

namespace Volume

theorem format_of_lt (few : n < 15) (sound : disk.Sound n) :
    ∃ part, format disk = .error (.fault (.diskTooSmall n part)) disk := by
  obtain ⟨part, plan⟩ := SystemLayout.plan_error few
  refine ⟨part, ?_⟩
  have count : Disk.count disk = .ok n disk := by
    rw [← sound.sectorCount_eq]
    rfl
  unfold format
  rw [Does.bind_of_ok count, plan]
  rfl

/-- Below fifteen sectors formatting is a fault that writes nothing. From there on it lays out an
empty volume, whatever the disk held before. -/
theorem format_ends (small : n ≤ diskLimit) (sound : disk.Sound n) :
    (n < 15 → ∃ part, format disk = .error (.fault (.diskTooSmall n part)) disk) ∧
    (15 ≤ n → ∃ volume disk', format disk = .ok volume disk' ∧ disk'.Formatted n volume ∧
      (∃ written, disk'.writes = written ++ disk.writes ∧
        ∀ s ∈ written, s < SystemLayout.used n) ∧
      ∀ s, SystemLayout.used n ≤ s → disk'.store s = disk.store s) := by
  refine ⟨fun few => format_of_lt few sound, fun large => ?_⟩
  obtain ⟨ws, map, mapExtent, rootExtent, runs, targets, l, full, perm⟩ :=
    Catalog.runs_format large small disk.store
  obtain ⟨disk', ends, wrote⟩ := runs.ends sound
  have after := wrote.store_eq sound.covers
  rw [← after] at l
  refine ⟨_, disk', ends, l.formatted (wrote.sound sound) full perm, ⟨_, wrote.writes_eq, ?_⟩,
    fun s hs => ?_⟩
  · intro s hs
    obtain ⟨w, hw, rfl⟩ := List.mem_map.mp (List.mem_reverse.mp hs)
    exact targets w hw
  · rw [after]
    apply Store.after_apply_of_forall
    intro w hw same
    have := targets w hw
    omega

theorem format_ends_blank :
    (∃ part, format (Disk.blank 14) = .error (.fault (.diskTooSmall 14 part)) (Disk.blank 14)) ∧
    ∃ volume disk', format (Disk.blank 15) = .ok volume disk' ∧ disk'.Formatted 15 volume := by
  constructor
  · exact (format_ends (by decide) (Disk.sound_blank (by decide))).1 (by decide)
  · obtain ⟨volume, disk', ends, formatted, -⟩ :=
      (format_ends (by decide) (Disk.sound_blank (by decide))).2 (Nat.le_refl 15)
    exact ⟨volume, disk', ends, formatted⟩

end Volume

end SectorFS
