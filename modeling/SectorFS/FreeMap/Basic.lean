import SectorFS.Size

/-!
The free map: which sectors of a disk are in use. Sectors are claimed lowest first.
-/

namespace SectorFS

/-- One flag for each sector, set when a header, an index block or file data owns it. -/
structure FreeMap where
  used : Array Bool
  deriving DecidableEq

namespace FreeMap

def sectorCount (map : FreeMap) : Nat := map.used.size

/-- Maps come in groups of 64 sectors, so the count rounded up to whole groups has to be a size. -/
def checkCount (sectors : Nat) : Except Failure Unit := do
  let _ ← Size.ceilDiv sectors 64

/-- A map of `sectors` free sectors. -/
def new (sectors : Nat) : Except Failure FreeMap := do
  checkCount sectors
  return ⟨.replicate sectors false⟩

def isUsed (map : FreeMap) (sector : Nat) : Except Failure Bool :=
  match map.used[sector]? with
  | some flag => .ok flag
  | none => .error (.fault (.outsideMap sector))

def mark (map : FreeMap) (sector : Nat) (flag : Bool) : FreeMap :=
  ⟨map.used.setIfInBounds sector flag⟩

/-- Marks a sector as used, whatever it was. -/
def reserve (map : FreeMap) (sector : Nat) : Except Failure FreeMap :=
  if sector < map.sectorCount then .ok (map.mark sector true)
  else .error (.fault (.outsideMap sector))

/-- Gives a used sector back. Giving back a free one is a fault: the free count would be wrong. -/
def release (map : FreeMap) (sector : Nat) : Except Failure FreeMap := do
  if ← map.isUsed sector then return map.mark sector false
  else throw (.fault (.alreadyFree sector))

/-- Takes the lowest free sector. -/
def claim? (map : FreeMap) : Option (Nat × FreeMap) := do
  let sector ← map.used.findIdx? (!·)
  return (sector, map.mark sector true)

/-- The sectors under a flag, ascending. -/
def sectorsWhere (map : FreeMap) (flag : Bool) : List Nat :=
  (List.range map.sectorCount).filter (map.used[·]? = some flag)

def usedSectors (map : FreeMap) : List Nat := map.sectorsWhere true

/-- Takes the `count` lowest free sectors, if there are as many. -/
def claimMany? (map : FreeMap) (count : Nat) : Option (List Nat × FreeMap) :=
  let sectors := (map.sectorsWhere false).take count
  if sectors.length = count then some (sectors, sectors.foldl (·.mark · true) map) else none

def freeCount (map : FreeMap) : Nat := map.used.count false

def render (map : FreeMap) : String :=
  "Bitmap set:\n" ++ ", ".intercalate (map.usedSectors.map toString)

end FreeMap

end SectorFS
