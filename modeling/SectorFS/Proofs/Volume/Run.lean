import SectorFS.Proofs.Volume.Enter
import SectorFS.Volume.Request

/-!
# Runs of a volume

A `Run` formats a sound disk and then carries out one action after another. Every refusal that the
caller may go on from is a part of it; a fault ends it.
-/

namespace SectorFS

/-- What is done with a mounted volume. Remounting takes it off and mounts what the disk holds. -/
inductive Action where
  | request (request : Request)
  | remount
  deriving DecidableEq, Repr

namespace Action

/-- Positions are 64-bit quantities. -/
def Fits : Action → Prop
  | .request (.seek _ position) => position < Size.limit
  | _ => True

/-- The path that the action takes. -/
def path? : Action → Option String
  | .request (.create path _) => some path
  | .request (.makeDirectory path) => some path
  | .request (.openPath path) => some path
  | .request (.remove path) => some path
  | .request (.list path) => some path
  | .request (.tree path) => some path
  | _ => none

def Absolute (action : Action) : Prop := ∀ path ∈ action.path?, Path.Absolute path

def opens : Action → Bool
  | .request (.openPath _) => true
  | _ => false

end Action

namespace Volume

def act (volume : Volume) : Action → DiskM (Answer × Volume)
  | .request request => volume.perform request
  | .remount => do
    volume.unmount
    return (.done, ← mount)

/-- The volume that the next action is for. A failed action leaves it as it was. -/
def next (volume : Volume) : Except Failure (Answer × Volume) → Volume
  | .ok (_, volume') => volume'
  | .error _ => volume

end Volume

/-- The volume and the disk after a format and the actions in `past`. -/
inductive Run (n : Nat) : (past : List Action) → Volume → Disk → Prop where
  | format {disk volume disk'} : disk.Sound n → Volume.format disk = .ok volume disk' →
      Run n [] volume disk'
  | answer {past volume disk action result volume' disk'} : Run n past volume disk →
      action.Fits → volume.act action disk = .ok (result, volume') disk' →
      Run n (past ++ [action]) volume' disk'
  | refusal {past volume disk action cause disk'} : Run n past volume disk → action.Fits →
      volume.act action disk = .error (.error cause) disk' → Run n (past ++ [action]) volume disk'

end SectorFS
