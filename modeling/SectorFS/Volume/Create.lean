import SectorFS.Path
import SectorFS.Volume.Basic

/-!
Making files and directories. The free map and the directory are changed in memory, and written only
once every step of the change has succeeded.
-/

namespace SectorFS.Volume

/-- The sectors and the directory slot of a new node, found but not yet written. -/
structure NewNode where
  sector : Nat
  header : Header
  directory : Directory
  map : FreeMap

/-- Claims a header sector, a slot under `name` and the sectors of `size` bytes, in this order. -/
def reserveNode (map : FreeMap) (directory : Directory) (name : String) (size : Nat)
    (isDirectory : Bool) : Except Failure NewNode := do
  match map.claim? with
  | none => throw (.error .noHeaderSector)
  | some (sector, map) =>
    match directory.add name sector isDirectory with
    | .error e => throw (.error e)
    | .ok directory =>
      let (header, map) ← Header.empty.allocate map size
      return ⟨sector, header, directory, map⟩

/-- Makes a file in the directory that `file` holds. The data sectors are not written: the file
starts out with what they hold. -/
def addFile (volume : Volume) (file : File) (directory : Directory) (name : String) (size : Nat) :
    DiskM Unit := do
  let node ← reserveNode (← volume.loadMap) directory name size false
  node.header.store node.sector
  node.directory.store file
  volume.storeMap node.map

/-- Makes an empty directory in the directory that `file` holds and returns its header sector. -/
def addDirectory (volume : Volume) (file : File) (directory : Directory) (name : String) :
    DiskM Nat := do
  let map ← volume.loadMap
  let node ← reserveNode map directory name (← Directory.fileSize directoryCapacity) true
  node.header.store node.sector
  (Directory.new directoryCapacity).store (← File.load node.sector)
  node.directory.store file
  volume.storeMap node.map
  return node.sector

/-- The header sector of the directory reached from `sector` along `names`. Directories that are
missing are made on the way. -/
def enterAlong (volume : Volume) : (sector : Nat) → (names : List String) → DiskM Nat
  | sector, [] => return sector
  | sector, name :: rest => do
    let (file, directory) ← volume.loadDirectory sector
    match directory.lookup? name with
    | some entry =>
      if entry.isDirectory then volume.enterAlong entry.sector rest
      else throw (.error .notADirectory)
    | none => volume.enterAlong (← volume.addDirectory file directory name) rest

/-- The directory at `path`, made with all its parents if it is missing. -/
def enter (volume : Volume) (path : String) : DiskM Nat :=
  volume.enterAlong rootSector (Path.components path)

/-- The directory in which a node at `path` is to be made, with its file, and the name of the node
there. -/
def placeFor (volume : Volume) (path : String) : DiskM (File × Directory × String) := do
  let (parent, name) ← Path.split path
  let (file, directory) ← volume.loadDirectory (← volume.enter parent)
  if (directory.lookup? name).isSome then throw (.error .alreadyExists)
  return (file, directory, name)

/-- Makes a file of `size` bytes. -/
def create (volume : Volume) (path : String) (size : Nat) : DiskM Unit := do
  let (file, directory, name) ← volume.placeFor path
  volume.addFile file directory name size

/-- Makes an empty directory. -/
def makeDirectory (volume : Volume) (path : String) : DiskM Unit := do
  let (file, directory, name) ← volume.placeFor path
  let _ ← volume.addDirectory file directory name

end SectorFS.Volume
