import SectorFS.Volume.Descriptors
import SectorFS.Volume.Format
import SectorFS.Volume.Mount
import SectorFS.Volume.Remove
import SectorFS.Volume.Report

/-!
The operations of a mounted volume as requests with answers. A request that fails may have changed
the disk, never the volume.
-/

namespace SectorFS

inductive Request where
  | create (path : String) (size : Nat)
  | makeDirectory (path : String)
  | openPath (path : String)
  | read (id count : Nat)
  | write (id : Nat) (data : List UInt8)
  | seek (id position : Nat)
  | length (id : Nat)
  | close (id : Nat)
  | remove (path : String)
  | list (path : String)
  | tree (path : String)
  | freeCount
  | dump
  deriving DecidableEq, Repr

inductive Answer where
  | done
  | descriptor (id : Nat)
  | bytes (data : List UInt8)
  | number (count : Nat)
  | names (list : List String)
  | text (content : String)
  deriving DecidableEq, Repr

/-- Carries a request out. -/
def Volume.perform (volume : Volume) : Request → DiskM (Answer × Volume)
  | .create path size => do
    volume.create path size
    return (.done, volume)
  | .makeDirectory path => do
    volume.makeDirectory path
    return (.done, volume)
  | .openPath path => do
    let (id, volume) ← volume.openPath path
    return (.descriptor id, volume)
  | .read id count => do
    let (data, volume) ← volume.read id count
    return (.bytes data, volume)
  | .write id data => do
    let (count, volume) ← volume.write id data
    return (.number count, volume)
  | .seek id position => return (.done, ← volume.seek id position)
  | .length id => return (.number (← volume.length id), volume)
  | .close id => return (.done, ← volume.close id)
  | .remove path => do
    volume.remove path
    return (.done, volume)
  | .list path => return (.names (← volume.list path), volume)
  | .tree path => return (.text (← volume.tree path), volume)
  | .freeCount => return (.number (← volume.freeCount), volume)
  | .dump => return (.text (← volume.dump), volume)

end SectorFS
