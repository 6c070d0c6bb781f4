import SectorFS.Volume.Basic

/-!
Mounting the volume that a disk already holds. The system files are checked against the size of the
disk and nothing is written.
-/

namespace SectorFS.Volume

/-- Whether both system headers are marked as used. -/
def systemSectorsUsed (map : FreeMap) : Except Failure Bool := do
  if ← map.isUsed freeMapSector then map.isUsed rootSector else return false

def mount : DiskM Volume := do
  let sectors ← Disk.count
  if sectors ≤ rootSector then throw (.error (.invalidLayout (.diskTooSmall sectors)))
  let mapFile ← File.load freeMapSector
  let rootFile ← File.load rootSector
  if mapFile.length ≠ (← FreeMap.storedLength sectors) then
    throw (.error (.invalidLayout (.freeMapLength mapFile.length sectors)))
  if rootFile.length = 0 ∨ rootFile.length % slotSize ≠ 0 then
    throw (.error (.invalidLayout (.rootLength rootFile.length)))
  let map ← FreeMap.load mapFile sectors
  if !(← systemSectorsUsed map) then throw (.error (.invalidLayout .systemSectorsFree))
  return .ofSystemFiles sectors mapFile rootFile

/-- Takes the volume off the disk. Descriptors that are still open are dropped. -/
def unmount (_ : Volume) : DiskM Unit := Disk.sync

end SectorFS.Volume
