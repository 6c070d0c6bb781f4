import SectorFS.File.Handle
import SectorFS.FreeMap.Codec

/-!
The free map lives in a file like any other.
-/

namespace SectorFS.FreeMap

/-- Reads the map of `sectors` sectors; where the file is too short, sectors are free. -/
def load (file : File) (sectors : Nat) : DiskM FreeMap := do
  let length ← storedLength sectors
  let bytes ← file.readAt 0 length
  ofBytes sectors (bytes ++ List.replicate (length - bytes.length) 0)

def store (map : FreeMap) (file : File) : DiskM Unit := do
  let _ ← file.writeAt 0 map.toBytes

end SectorFS.FreeMap
