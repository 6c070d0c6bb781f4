import SectorFS.Disk.Sector
import SectorFS.Word

/-!
An index block fills one sector: the link to the next block, then the data sectors that this block
lists. The words are kept as they were read, so that writing a block back changes nothing.
-/

namespace SectorFS

structure IndexBlock where
  link : UInt32
  slots : Vector UInt32 slotsPerBlock
  deriving DecidableEq

namespace IndexBlock

/-- A block that lists `data` from its first slot on. -/
def ofSectors (next : Option Nat) (data : List Nat) : IndexBlock where
  link := Word.ofSector? next
  slots := .ofFn fun i => Word.ofSector? data[i.val]?

/-- The sector of the next block. -/
def next? (block : IndexBlock) : Option Nat := Word.sector? block.link

/-- The sectors that the words name, up to the first word that names none. -/
def leadingSectors : List UInt32 → List Nat
  | [] => []
  | w :: rest =>
    match Word.sector? w with
    | some sector => sector :: leadingSectors rest
    | none => []

def dataSectors (block : IndexBlock) : List Nat := leadingSectors block.slots.toList

/-- The sector in one slot, which may lie behind an empty one. -/
def dataSector? (block : IndexBlock) (slot : Nat) : Option Nat :=
  block.slots[slot]?.bind Word.sector?

def toSector (block : IndexBlock) : Sector :=
  .ofBytes ((block.link :: block.slots.toList).flatMap Word.toBytes)

def ofSector (sector : Sector) : IndexBlock :=
  let words := (Word.decode sector.bytes).toArray
  ⟨words.getD 0 0, .ofFn fun i => words.getD (i + 1) 0⟩

end IndexBlock

end SectorFS
