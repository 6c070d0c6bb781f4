/-!
Planned failures of a device. A plan refuses a request by what was let through before it and by
the sector it is for, so that a run can be stopped at any request.
-/

namespace SectorFS

/-- `read seen sector` and `write seen sector` say whether a request for `sector` is refused when
the sectors `seen`, the latest first, are those of the requests let through so far. -/
structure FaultPlan where
  read : List Nat → Nat → Bool
  write : List Nat → Nat → Bool
  sync : Bool

namespace FaultPlan

/-- Lets every request through. -/
def none : FaultPlan := ⟨fun _ _ => false, fun _ _ => false, false⟩

/-- Refuses reads and writes of the listed sectors, and every write after the first `writesLeft`. -/
def ofLists (reads writes : List Nat) (writesLeft : Option Nat) (sync : Bool) : FaultPlan where
  read _ sector := reads.contains sector
  write seen sector := writes.contains sector || writesLeft.any (· ≤ seen.length)
  sync := sync

end FaultPlan

end SectorFS
