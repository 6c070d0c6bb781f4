import SectorFS.File.Contents
import SectorFS.Volume.Basic

/-!
What can be told about a volume as a whole.
-/

namespace SectorFS.Volume

def freeCount (volume : Volume) : DiskM Nat := return (← volume.loadMap).freeCount

/-- The system files, byte by byte, then the free map and the root directory. -/
def dump (volume : Volume) : DiskM String := do
  let map ← volume.loadMap
  let root ← Directory.load volume.rootFile
  let mapHeader := volume.mapFile.header
  let rootHeader := volume.rootFile.header
  let mapContents ← mapHeader.contents
  let rootContents ← rootHeader.contents
  return "Bit map file header:\n" ++ mapHeader.render ++ "\nFile contents:\n" ++ mapContents ++
    "Directory file header:\n" ++ rootHeader.render ++ "\nFile contents:\n" ++ rootContents ++
    map.render ++ "\n" ++ root.render

end SectorFS.Volume
