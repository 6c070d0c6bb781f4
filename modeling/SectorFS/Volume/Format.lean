import SectorFS.Volume.Basic

/-!
Laying out an empty volume. The sectors of the two system files are fixed by the size of the disk
alone, before anything is written.
-/

namespace SectorFS

/-- Where the system files of an empty volume lie. -/
structure SystemLayout where
  map : FreeMap
  mapHeader : Header
  rootHeader : Header

namespace SystemLayout

/-- Takes the sectors of a system file; a disk without room for it cannot be formatted. -/
def place (sectors : Nat) (part : SystemPart) (map : FreeMap) (size : Nat) :
    Except Failure (Header × FreeMap) :=
  match Header.empty.allocate map size with
  | .error (.error _) => .error (.fault (.diskTooSmall sectors part))
  | result => result

/-- The layout for a disk of `sectors` sectors: the two header sectors, the free map behind them,
then the root directory. -/
def plan (sectors : Nat) : Except Failure SystemLayout := do
  if sectors ≤ rootSector then throw (.fault (.diskTooSmall sectors .headers))
  let map ← FreeMap.new sectors
  let map ← map.reserve freeMapSector
  let map ← map.reserve rootSector
  let (mapHeader, map) ← place sectors .freeMap map (← FreeMap.storedLength sectors)
  let (rootHeader, map) ←
    place sectors .rootDirectory map (← Directory.fileSize directoryCapacity)
  return ⟨map, mapHeader, rootHeader⟩

end SystemLayout

/-- Writes an empty volume to the disk and mounts it. -/
def Volume.format : DiskM Volume := do
  let sectors ← Disk.count
  let layout ← SystemLayout.plan sectors
  layout.mapHeader.store freeMapSector
  layout.rootHeader.store rootSector
  let mapFile ← File.load freeMapSector
  let rootFile ← File.load rootSector
  layout.map.store mapFile
  (Directory.new directoryCapacity).store rootFile
  Disk.sync
  return .ofSystemFiles sectors mapFile rootFile

end SectorFS
