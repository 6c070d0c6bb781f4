import SectorFS.Volume.Create

/-!
Open descriptors. The k-th descriptor opened has the number k, and each has a cursor of its own.
-/

namespace SectorFS.Volume

/-- Descriptor numbers are 32-bit; the last one is never given out. -/
def lastId : Nat := 0xffffffff

/-- The file or directory at `path`. Missing directories on the way are made. -/
def resolve (volume : Volume) (path : String) : DiskM Descriptor := do
  let (parent, name) ← Path.split path
  if parent.isEmpty && name.isEmpty then return ⟨volume.rootFile, true⟩
  let (_, directory) ← volume.loadDirectory (← volume.enter parent)
  match directory.lookup? name with
  | some entry => return ⟨← File.load entry.sector, entry.isDirectory⟩
  | none => throw (.error .notFound)

/-- Opens the file or directory at `path` under the next number. -/
def openPath (volume : Volume) (path : String) : DiskM (Nat × Volume) := do
  if lastId ≤ volume.nextId then throw (.error .noDescriptor)
  let descriptor ← volume.resolve path
  return (volume.nextId,
    { volume with
      descriptors := (volume.nextId, descriptor) :: volume.descriptors
      nextId := volume.nextId + 1 })

def descriptor (volume : Volume) (id : Nat) : Except Error Descriptor :=
  match volume.descriptors.lookup id with
  | some descriptor => .ok descriptor
  | none => .error (.badDescriptor id)

/-- Puts another file, or a moved cursor, under an open number. -/
def setFile (volume : Volume) (id : Nat) (file : File) : Volume :=
  { volume with
    descriptors := volume.descriptors.map fun (key, descriptor) =>
      (key, if key = id then { descriptor with file } else descriptor) }

/-- Reads up to `count` bytes at the cursor of `id`. -/
def read (volume : Volume) (id count : Nat) : DiskM (List UInt8 × Volume) := do
  let descriptor ← volume.descriptor id
  let (bytes, file) ← descriptor.file.read count
  return (bytes, volume.setFile id file)

/-- Writes at the cursor of `id`. -/
def write (volume : Volume) (id : Nat) (data : List UInt8) : DiskM (Nat × Volume) := do
  let descriptor ← volume.descriptor id
  if descriptor.isDirectory then throw (.error .isADirectory)
  let (count, file) ← descriptor.file.write data
  return (count, volume.setFile id file)

def seek (volume : Volume) (id position : Nat) : Except Error Volume := do
  let descriptor ← volume.descriptor id
  return volume.setFile id (descriptor.file.seek position)

/-- The length in bytes of the file under `id`. -/
def length (volume : Volume) (id : Nat) : Except Error Nat :=
  return (← volume.descriptor id).file.length

def close (volume : Volume) (id : Nat) : Except Error Volume := do
  let _ ← volume.descriptor id
  return { volume with descriptors := volume.descriptors.filter (·.1 != id) }

end SectorFS.Volume
