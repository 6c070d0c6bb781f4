import SectorFS.Volume.Lookup

/-!
Removing files and empty directories. The free map is written before the directory that loses the
name.
-/

namespace SectorFS.Volume

/-- Whether some open descriptor is for the file whose header is at `sector`. -/
def isOpen (volume : Volume) (sector : Nat) : Bool :=
  volume.descriptors.any fun (_, descriptor) => descriptor.file.sector == sector

/-- Gives the data, the index blocks and the header sector of a file back. -/
def releaseNode (map : FreeMap) (file : File) : Except Failure FreeMap := do
  (← file.header.release map).release file.sector

def remove (volume : Volume) (path : String) : DiskM Unit := do
  let (parent, name) ← Path.split path
  if name.isEmpty then throw (.error (.invalidArgument (.removal path)))
  let (parentFile, directory) ← volume.loadDirectory (← volume.find parent)
  match directory.lookup? name with
  | none => throw (.error .notFound)
  | some entry =>
    if volume.isOpen entry.sector then throw (.error .fileInUse)
    let file ← File.load entry.sector
    if entry.isDirectory then
      if !(← Directory.load file).isEmpty then throw (.error .directoryNotEmpty)
    let map ← releaseNode (← volume.loadMap) file
    let directory ← directory.remove name
    volume.storeMap map
    directory.store parentFile

end SectorFS.Volume
