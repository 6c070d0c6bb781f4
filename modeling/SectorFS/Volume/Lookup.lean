import SectorFS.Directory.Tree
import SectorFS.Path
import SectorFS.Volume.Basic

/-!
Finding directories without making any, and the listings of what they hold.
-/

namespace SectorFS.Volume

/-- The header sector of the directory reached from `sector` along `names`. -/
def findAlong (volume : Volume) : (sector : Nat) → (names : List String) → DiskM Nat
  | sector, [] => return sector
  | sector, name :: rest => do
    let (_, directory) ← volume.loadDirectory sector
    match directory.lookup? name with
    | some entry =>
      if entry.isDirectory then volume.findAlong entry.sector rest
      else throw (.error .notADirectory)
    | none => throw (.error .notFound)

/-- The directory at `path`. -/
def find (volume : Volume) (path : String) : DiskM Nat :=
  volume.findAlong rootSector (Path.components path)

/-- The directory at an absolute path, with its table. -/
def directoryAt (volume : Volume) (path : String) : DiskM Directory := do
  Path.requireAbsolute path
  let (_, directory) ← volume.loadDirectory (← volume.find path)
  return directory

/-- The names in the directory at `path`, in table order. -/
def list (volume : Volume) (path : String) : DiskM (List String) :=
  return (← volume.directoryAt path).names

/-- The listing of everything below the directory at `path`. -/
def tree (volume : Volume) (path : String) : DiskM String := do
  (← volume.directoryAt path).tree 0

end SectorFS.Volume
