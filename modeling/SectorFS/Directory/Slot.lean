import SectorFS.Directory.Name
import SectorFS.Word

/-!
One slot of a directory table. A slot keeps every byte it was read with, also when it is not in use
and when its bytes mean nothing.
-/

namespace SectorFS

structure Slot where
  inUse : UInt8
  kind : UInt8
  reserved : Vector UInt8 2
  sector : UInt32
  name : NameField
  deriving DecidableEq

/-- What a slot in use says. -/
structure Entry where
  name : String
  /-- Where the header of the named file lies. -/
  sector : Nat
  isDirectory : Bool
  deriving DecidableEq, Repr

namespace Slot

def unused : Slot := ⟨0, 0, .replicate 2 0, 0, .replicate nameLimit 0⟩

def ofEntry (name : NameField) (sector : Nat) (isDirectory : Bool) : Slot :=
  ⟨1, if isDirectory then 1 else 0, .replicate 2 0, Word.ofSector? (some sector), name⟩

def isUsed (slot : Slot) : Bool := slot.inUse != 0

/-- Whether the slot is in use under this very name. -/
def holds (slot : Slot) (name : NameField) : Bool := slot.isUsed && slot.name == name

/-- The entry in a slot; a slot whose sector is none has no entry, in use or not. -/
def entry? (slot : Slot) : Option Entry :=
  if slot.isUsed then
    (Word.sector? slot.sector).map fun sector => ⟨slot.name.toName, sector, slot.kind != 0⟩
  else none

def clear (slot : Slot) : Slot := { slot with inUse := 0 }

def toBytes (slot : Slot) : List UInt8 :=
  [slot.inUse, slot.kind] ++ slot.reserved.toList ++ Word.toBytes slot.sector ++ slot.name.toList

def ofBytes (bytes : List UInt8) : Slot :=
  let byte (i : Nat) := bytes.getD i 0
  ⟨byte 0, byte 1, .ofFn fun i => byte (2 + i), Word.ofBytes (byte 4) (byte 5) (byte 6) (byte 7),
    .ofFn fun i => byte (8 + i)⟩

end Slot

end SectorFS
