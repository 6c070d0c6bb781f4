import SectorFS.Disk.Image
import SectorFS.Tool.Place

/-!
The files of the host system that a run of the tool can see. A host name is a way that is followed
step by step, and every step but the last has to lead to a folder.
-/

namespace SectorFS.Tool

/-- Files and folders by their places. Every origin is a folder. -/
structure Host where
  files : List (Place × Image)
  folders : List Place

namespace Host

/-- The most bytes in one step of a way. -/
def stepLimit : Nat := 255

/-- The most bytes in a whole name. -/
def nameLimit : Nat := 4095

def empty : Host := ⟨[], []⟩

def isFolder (host : Host) (place : Place) : Bool :=
  place.names.isEmpty || host.folders.contains place

def content? (host : Host) (place : Place) : Option Image := host.files.lookup place

/-- Puts a file in a place, instead of the one that was there. -/
def put (host : Host) (place : Place) (content : Image) : Host :=
  { host with files := (place, content) :: host.files.filter (·.1 != place) }

def addFolder (host : Host) (place : Place) : Host :=
  { host with folders := place :: host.folders }

/-- Files with names in the working folder. -/
def ofFiles (files : List (String × List UInt8)) : Host :=
  files.foldl (fun host (name, bytes) => host.put ⟨.working 0, [name]⟩ (.ofBytes bytes)) empty

/-- One step on a way that has led to `place`. -/
def step (host : Host) (place : Place) (name : String) : Except Error Place :=
  if !host.isFolder place then
    .error (.io (if (host.content? place).isSome then .notAFolder else .fileMissing))
  else if stepLimit < name.utf8ByteSize then .error (.io .hostNameTooLong)
  else .ok (place.step name)

/-- Follows a way. What its last step leads to need not be there. -/
def follow (host : Host) (way : List Char) : Except Error Place :=
  (Place.steps way).foldlM host.step (Place.start way)

/-- A name as a way. -/
def way (name : String) : Except Error (List Char) :=
  if name.isEmpty then .error (.io .fileMissing)
  else if nameLimit < name.utf8ByteSize then .error (.io .hostNameTooLong)
  else .ok name.toList

/-- Opens a file that is there already, and tells its place. -/
def openFile (host : Host) (name : String) : Except Error (Place × Image) := do
  let place ← host.follow (← way name)
  match host.content? place with
  | some content => return (place, content)
  | none => throw (.io (if host.isFolder place then .isFolder else .fileMissing))

/-- The place for a file to be written, new or cut to nothing. A name that ends in a separator can
only be that of a folder. -/
def placeToWrite (host : Host) (name : String) : Except Error Place := do
  let way ← way name
  if way.getLast? = some Path.separator then
    let _ ← host.follow (Place.enclosing way)
    throw (.io .isFolder)
  let place ← host.follow way
  if host.isFolder place then throw (.io .isFolder)
  return place

/-- The content of the file under a name. -/
def file? (host : Host) (name : String) : Option Image :=
  (host.openFile name).toOption.map (·.2)

end Host

end SectorFS.Tool
