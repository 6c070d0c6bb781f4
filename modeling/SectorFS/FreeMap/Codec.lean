import SectorFS.FreeMap.Basic

/-!
The stored form of a free map: sector `i` is bit `i % 8` of byte `i / 8`, and the unused bits of the
last byte are zero.
-/

namespace SectorFS.FreeMap

/-- Bytes in the stored form of a map of `sectors` sectors. -/
def storedLength (sectors : Nat) : Except Failure Nat := Size.ceilDiv sectors 8

/-- The byte whose bit `k` is `bit k`. -/
def packByte (bit : Nat → Bool) : UInt8 :=
  .ofNat ((List.range 8).foldr (fun k high => (bit k).toNat + 2 * high) 0)

def toBytes (map : FreeMap) : List UInt8 :=
  (List.range ((map.sectorCount + 7) / 8)).map fun j =>
    packByte fun k => map.used.getD (8 * j + k) false

/-- Reads the stored form. What follows the last flag is ignored. -/
def ofBytes (sectors : Nat) (bytes : List UInt8) : Except Failure FreeMap := do
  let length ← storedLength sectors
  if bytes.length < length then throw (.fault (.mapTooShort sectors))
  checkCount sectors
  let stored := bytes.toArray
  return ⟨.ofFn fun i : Fin sectors => (stored.getD (i / 8) 0).toNat.testBit (i % 8)⟩

end SectorFS.FreeMap
