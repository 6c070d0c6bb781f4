import SectorFS.Disk.Basic
import SectorFS.File.Block
import SectorFS.FreeMap.Basic

/-!
The chain of index blocks of a file. Data sector `i` of the file is in slot `i % 31` of block
`i / 31`.
-/

namespace SectorFS

/-- An index block and the sector it is stored in. -/
structure StoredBlock where
  sector : Nat
  block : IndexBlock
  deriving DecidableEq

structure Chain where
  blocks : List StoredBlock
  deriving DecidableEq

namespace Chain

def empty : Chain := ⟨[]⟩

/-- Index blocks that list `count` data sectors. -/
def blocksFor (count : Nat) : Except Failure Nat := Size.ceilDiv count slotsPerBlock

def head? (chain : Chain) : Option Nat := chain.blocks.head?.map (·.sector)

def indexSectors (chain : Chain) : List Nat := chain.blocks.map (·.sector)

/-- The data sectors in file order. -/
def dataSectors (chain : Chain) : List Nat := chain.blocks.flatMap (·.block.dataSectors)

/-- Deals sectors out as an index block, the data sectors it lists, the next index block, and so
on. -/
def deal : List Nat → List StoredBlock
  | [] => []
  | index :: rest =>
    let later := rest.drop slotsPerBlock
    ⟨index, .ofSectors later.head? (rest.take slotsPerBlock)⟩ :: deal later
  termination_by sectors => sectors.length

/-- Claims `count` data sectors and the index blocks that list them, or nothing at all. -/
def allocate (map : FreeMap) (count : Nat) : Except Failure (Chain × FreeMap) := do
  let needed ← Size.add count (← blocksFor count)
  if map.freeCount < needed then throw (.error .noSpace)
  match map.claimMany? needed with
  | some (sectors, map) => return (⟨deal sectors⟩, map)
  | none => throw (.error .noSpace)

/-- All sectors of the chain, each block's data before the block itself. -/
def sectors (chain : Chain) : List Nat :=
  chain.blocks.flatMap fun stored => stored.block.dataSectors ++ [stored.sector]

/-- Gives all sectors of the chain back. -/
def release (chain : Chain) (map : FreeMap) : Except Failure FreeMap :=
  chain.sectors.foldlM FreeMap.release map

/-- The disk sector of the file's sector `index`. A header whose chain does not reach that far is
at fault. -/
def sectorOf (chain : Chain) (index : Nat) : Except Failure Nat :=
  match chain.blocks[index / slotsPerBlock]? with
  | none =>
    .error (.fault (.chainTooShort chain.blocks.length index (index / slotsPerBlock)))
  | some stored =>
    match stored.block.dataSector? (index % slotsPerBlock) with
    | some sector => .ok sector
    | none => .error (.fault (.emptySlot stored.sector (index % slotsPerBlock)))

/-- Follows the links from `next` on, one read for each block, behind the blocks `before` (the
latest first). Once `left` is used up, a further link means that the chain cannot be trusted. -/
def loadFrom (limit : Nat) (before : List StoredBlock) : Nat → Option Nat → DiskM Chain
  | _, none => return ⟨before.reverse⟩
  | 0, some sector => throw (.error (.invalidLayout (.chainTooLong limit sector)))
  | left + 1, some sector => do
    let block := IndexBlock.ofSector (← Disk.read sector)
    loadFrom limit (⟨sector, block⟩ :: before) left block.next?

/-- Reads the chain that starts at `head`, of at most `limit` blocks. -/
def load (head : Option Nat) (limit : Nat) : DiskM Chain := loadFrom limit [] limit head

/-- Writes every block to its own sector. -/
def store (chain : Chain) : DiskM Unit :=
  chain.blocks.forM fun stored => Disk.write stored.sector stored.block.toSector

end Chain

end SectorFS
