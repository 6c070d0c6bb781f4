import SectorFS.Directory.Basic
import SectorFS.FreeMap.Stored

/-!
A mounted volume: the two system files, which stay open, and the table of open descriptors. All else
is on the disk and is read anew by each operation.
-/

namespace SectorFS

/-- A file opened through a volume. Directories are opened for reading only. -/
structure Descriptor where
  file : File
  isDirectory : Bool
  deriving DecidableEq

structure Volume where
  sectorCount : Nat
  mapFile : File
  rootFile : File
  /-- The open descriptors under their numbers. -/
  descriptors : List (Nat × Descriptor)
  /-- The number of the next descriptor. -/
  nextId : Nat
  deriving DecidableEq

namespace Volume

/-- Descriptor numbers start at one and are never used twice. -/
def ofSystemFiles (sectorCount : Nat) (mapFile rootFile : File) : Volume :=
  ⟨sectorCount, mapFile, rootFile, [], 1⟩

def loadMap (volume : Volume) : DiskM FreeMap := FreeMap.load volume.mapFile volume.sectorCount

def storeMap (volume : Volume) (map : FreeMap) : DiskM Unit := map.store volume.mapFile

/-- Reads the directory whose header is at `sector`, together with its file. -/
def loadDirectory (volume : Volume) (sector : Nat) : DiskM (File × Directory) := do
  let file ← if sector = rootSector then pure volume.rootFile else File.load sector
  return (file, ← Directory.load file)

end Volume

end SectorFS
