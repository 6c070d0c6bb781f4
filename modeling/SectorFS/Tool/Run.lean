import SectorFS.Tool.Command
import SectorFS.Tool.Host
import SectorFS.Tool.Outcome
import SectorFS.Volume.Request

/-!
One run of the tool: a command line and the host files before it give an exit code, the output and
the host files after it. What a run wrote to the image before it failed stays written.
-/

namespace SectorFS.Tool

/-- Copies `data` into a new file of the volume. -/
def put (volume : Volume) (path : String) (data : List UInt8) : DiskM Unit := do
  volume.create path data.length
  let (id, volume) ← volume.openPath path
  let (_, volume) ← volume.write id data
  let _ ← volume.close id

/-- The bytes of a file of the volume. -/
def cat (volume : Volume) (path : String) : DiskM (List UInt8) := do
  let (id, volume) ← volume.openPath path
  let (data, volume) ← volume.read id (← volume.length id)
  let _ ← volume.close id
  return data

/-- Carries a task out on a mounted volume and returns its output. -/
def execute (host : Host) (volume : Volume) : Task → DiskM (List UInt8)
  | .put source path => do
    let (_, content) ← host.openFile source
    put volume path content.toBytes
    return []
  | .cat path => cat volume path
  | .rm path => do
    volume.remove path
    return []
  | .mkdir path => do
    volume.makeDirectory path
    return []
  | .ls path true => return Text.encodeUtf8 (← volume.tree path)
  | .ls path false =>
    return Text.encodeUtf8 (String.join ((← volume.list path).map (· ++ "\n")))
  | .dump => return Text.encodeUtf8 ((← volume.dump) ++ "\n")

/-- Runs a program on a disk of `sectors` sectors over an image. A disk without sectors is refused
and leaves the image as it was. -/
def onDisk (image : Image) (sectors : Nat) (clear : Bool) (program : DiskM (List UInt8)) :
    Outcome × Image :=
  match Disk.prepare image sectors clear with
  | .error e => (.ofFailure (.error (.io e)), image)
  | .ok medium =>
    match program (Disk.attach medium sectors .none) with
    | .ok output disk => (.success output, disk.image)
    | .error e disk => (.ofFailure e, disk.image)

/-- Makes an empty volume. -/
def format : DiskM (List UInt8) := do
  let volume ← Volume.format
  volume.unmount
  return []

/-- Carries a task out on the volume that a disk holds. -/
def onVolume (host : Host) (task : Task) : DiskM (List UInt8) := do
  let volume ← Volume.mount
  let output ← execute host volume task
  volume.unmount
  return output

/-- A run with a command line that could be read. The image of a new volume is made or cut to
nothing first; for a task its length gives the number of sectors. -/
def invoke (host : Host) (invocation : Invocation) : Outcome × Host :=
  match invocation.command with
  | .format sectors =>
    match host.placeToWrite invocation.image with
    | .error e => (.ofFailure (.error e), host)
    | .ok place =>
      let (outcome, image) := onDisk .empty sectors true format
      (outcome, host.put place image)
  | .task task =>
    match host.openFile invocation.image with
    | .error e => (.ofFailure (.error e), host)
    | .ok (place, content) =>
      let (outcome, image) :=
        onDisk content (content.size / sectorSize) false (onVolume host task)
      (outcome, host.put place image)

def run (host : Host) (words : List String) : Outcome × Host :=
  match Invocation.read words with
  | none => (.usage, host)
  | some invocation => invoke host invocation

end SectorFS.Tool
