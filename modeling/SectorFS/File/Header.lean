import SectorFS.File.Chain

/-!
A file header says how long a file is and where its data lies. It is stored as a record of three
words at the start of a sector of its own; the rest of that sector is zero.
-/

namespace SectorFS

structure Header where
  /-- In bytes. -/
  length : Nat
  /-- Data sectors, as many as cover the length. -/
  sectorCount : Nat
  chain : Chain
  deriving DecidableEq

namespace Header

def empty : Header := ⟨0, 0, .empty⟩

def dataSectors (header : Header) : List Nat := header.chain.dataSectors

def indexSectors (header : Header) : List Nat := header.chain.indexSectors

/-- Claims the sectors of a file of `size` bytes. A header takes its sectors once only. -/
def allocate (header : Header) (map : FreeMap) (size : Nat) :
    Except Failure (Header × FreeMap) := do
  let count ← Size.ceilDiv size sectorSize
  if !header.chain.blocks.isEmpty then throw (.fault .chainInUse)
  let (chain, map) ← Chain.allocate map count
  return (⟨size, count, chain⟩, map)

/-- Gives the data and index sectors back. The header's own sector is its owner's to give. -/
def release (header : Header) (map : FreeMap) : Except Failure FreeMap := header.chain.release map

/-- The disk sector that holds the byte at `offset`. -/
def sectorAt (header : Header) (offset : Nat) : Except Failure Nat :=
  header.chain.sectorOf (offset / sectorSize)

/-- The words of the record: length, number of data sectors, first index block. -/
def record (header : Header) : List UInt32 :=
  [.ofNat header.length, .ofNat header.sectorCount, Word.ofSector? header.chain.head?]

def toSector (header : Header) : Sector := .ofBytes (header.record.flatMap Word.toBytes)

/-- Writes the record, then the index blocks. -/
def store (header : Header) (sector : Nat) : DiskM Unit := do
  Disk.write sector header.toSector
  header.chain.store

/-- Reads a header with its whole chain. Sizes that do not fit together are refused. -/
def load (sector : Nat) : DiskM Header := do
  let words := (Word.decode (← Disk.read sector).bytes).toArray
  let length := words.getD 0 0
  let count := words.getD 1 0
  let refusal : Failure := .error
    (.invalidLayout (.headerSizes sector (Word.toSigned length) (Word.toSigned count)))
  if 0x80000000 ≤ length.toNat then throw refusal
  if count.toNat ≠ (← Size.ceilDiv length.toNat sectorSize) then throw refusal
  let chain ← Chain.load (Word.sector? (words.getD 2 0)) (← Chain.blocksFor count.toNat)
  return ⟨length.toNat, count.toNat, chain⟩

def render (header : Header) : String :=
  let index := ", ".intercalate (header.indexSectors.map toString)
  let data := " ".intercalate (header.dataSectors.map toString)
  s!"FileHeader contents.  File size: {header.length}.  Index blocks: [{index}].  " ++
    s!"File blocks:\n{data}"

end Header

end SectorFS
