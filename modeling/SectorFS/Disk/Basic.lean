import SectorFS.Disk.Faults
import SectorFS.Disk.Image
import SectorFS.Size

/-!
A disk is a run of sectors over an image. A request is for one whole sector below the sector
count; a write may reach past the end of the image and grows it, a read may not.
-/

namespace SectorFS

/-- A device with its medium, its planned failures, and the sectors of the requests that the plan
has let through, the latest first. -/
structure Disk where
  sectorCount : Nat
  image : Image
  faults : FaultPlan
  reads : List Nat
  writes : List Nat

/-- Programs over a disk. What was done to the disk before a failure stays done. -/
abbrev DiskM := EStateM Failure Disk

instance : MonadLift (Except Failure) DiskM where
  monadLift
    | .ok a => pure a
    | .error e => throw e

instance : MonadLift (Except Error) DiskM where
  monadLift
    | .ok a => pure a
    | .error e => throw (.error e)

namespace Disk

/-- A disk of `sectorCount` sectors over `image`, with no request made yet. -/
def attach (image : Image) (sectorCount : Nat) (faults : FaultPlan) : Disk :=
  ⟨sectorCount, image, faults, [], []⟩

/-- The image that a new disk starts from. A disk needs a sector at least; `clear` fills all its
sectors with zeros. -/
def prepare (image : Image) (sectorCount : Nat) (clear : Bool) : Except DiskError Image :=
  if sectorCount = 0 then .error .noSectors
  else .ok (if clear then image.clear sectorCount else image)

/-- The number of sectors of the disk. -/
def count : DiskM Nat := return (← get).sectorCount

/-- No transfer may end past this byte offset. -/
def offsetLimit : Nat := 0x7fffffffffffffff

/-- Whether `sector` can be transferred with a buffer of `size` bytes. -/
def check (disk : Disk) (sector size : Nat) : Except Failure Unit := do
  if disk.sectorCount ≤ sector then throw (.error (.io .sectorOutOfRange))
  if size ≠ sectorSize then throw (.error (.io .bufferNotOneSector))
  let offset ← Size.mul sector sectorSize
  if offsetLimit < offset + sectorSize then throw (.error (.io .offsetTooLarge))

/-- Reads `sector` into a buffer of `size` bytes. -/
def readInto (sector size : Nat) : DiskM Sector := fun disk =>
  if disk.faults.read disk.reads sector then .error (.error (.io .injected)) disk
  else
    let served := { disk with reads := sector :: disk.reads }
    match disk.check sector size, disk.image.sector? sector with
    | .error e, _ => .error e served
    | .ok _, some data => .ok data served
    | .ok _, none => .error (.error (.io .shortRead)) served

def read (sector : Nat) : DiskM Sector := readInto sector sectorSize

/-- Writes a buffer to `sector`. -/
def writeFrom (sector : Nat) (buffer : List UInt8) : DiskM Unit := fun disk =>
  if disk.faults.write disk.writes sector then .error (.error (.io .injected)) disk
  else
    match disk.check sector buffer.length with
    | .error e => .error e { disk with writes := sector :: disk.writes }
    | .ok _ =>
      .ok () { disk with
        image := disk.image.write sector (.ofBytes buffer)
        writes := sector :: disk.writes }

def write (sector : Nat) (data : Sector) : DiskM Unit := writeFrom sector data.bytes

/-- Every write is on the medium already; flushing only can be planned to fail. -/
def sync : DiskM Unit := fun disk =>
  if disk.faults.sync then .error (.error (.io .injected)) disk else .ok () disk

end Disk

end SectorFS
