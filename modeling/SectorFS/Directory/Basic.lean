import SectorFS.Directory.Slot
import SectorFS.File.Handle

/-!
A directory is a table of slots whose number is fixed when it is made. It is changed as a whole in
memory and then stored as the contents of a file.
-/

namespace SectorFS

structure Directory where
  slots : List Slot
  deriving DecidableEq

namespace Directory

def new (capacity : Nat) : Directory := ⟨List.replicate capacity .unused⟩

/-- A new directory with as many slots as asked for, if a buffer can hold them. -/
def ofCapacity (capacity : Nat) : Except Failure Directory := do
  let _ ← Size.buffer capacity slotSize
  return new capacity

def capacity (dir : Directory) : Nat := dir.slots.length

/-- Bytes of the file that holds a directory of this capacity. -/
def fileSize (capacity : Nat) : Except Failure Nat := Size.mul capacity slotSize

/-- The entries in table order. -/
def entries (dir : Directory) : List Entry := dir.slots.filterMap Slot.entry?

def isEmpty (dir : Directory) : Bool := dir.entries.isEmpty

def names (dir : Directory) : List String := dir.entries.map (·.name)

/-- The lowest slot in use under `name`. No slot is found under a name that cannot be stored. -/
def index? (dir : Directory) (name : String) : Option Nat :=
  match NameField.ofName name with
  | .ok field => dir.slots.findIdx? (·.holds field)
  | .error _ => none

def lookup? (dir : Directory) (name : String) : Option Entry := do
  let slot ← dir.slots[← dir.index? name]?
  slot.entry?

/-- Puts a name into the lowest unused slot. -/
def add (dir : Directory) (name : String) (sector : Nat) (isDirectory : Bool) :
    Except Error Directory := do
  let field ← NameField.ofName name
  if (dir.index? name).isSome then throw .alreadyExists
  match dir.slots.findIdx? (!·.isUsed) with
  | some i => return ⟨dir.slots.set i (.ofEntry field sector isDirectory)⟩
  | none => throw .directoryFull

/-- Marks the slot under `name` as unused; its other bytes stay. -/
def remove (dir : Directory) (name : String) : Except Error Directory :=
  match dir.index? name with
  | some i => .ok ⟨dir.slots.modify i Slot.clear⟩
  | none => .error .notFound

def toBytes (dir : Directory) : List UInt8 := dir.slots.flatMap Slot.toBytes

def slotsOfBytes : Nat → List UInt8 → List Slot
  | 0, _ => []
  | count + 1, bytes =>
    Slot.ofBytes (bytes.take slotSize) :: slotsOfBytes count (bytes.drop slotSize)

/-- The table spelled by the bytes; those that fill no whole slot are dropped. -/
def ofBytes (bytes : List UInt8) : Directory := ⟨slotsOfBytes (bytes.length / slotSize) bytes⟩

/-- Reads the table. The length of the file gives the capacity. -/
def load (file : File) : DiskM Directory := do
  let size ← fileSize (file.length / slotSize)
  return ofBytes (← file.readAt 0 size)

def store (dir : Directory) (file : File) : DiskM Unit := do
  let _ ← file.writeAt 0 dir.toBytes

def render (dir : Directory) : String :=
  "Directory contents:\n" ++ String.join (dir.entries.map fun entry =>
    s!"Name: {entry.name}, Sector: {entry.sector}, Directory: {entry.isDirectory}\n")

end Directory

end SectorFS
