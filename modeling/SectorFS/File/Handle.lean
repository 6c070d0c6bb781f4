import SectorFS.File.Header

/-!
Reading and writing a file by bytes. A file keeps the length it was made with, so every transfer is
cut at the end of the file.
-/

namespace SectorFS

/-- A file with the sector of its header and a cursor. -/
structure File where
  sector : Nat
  header : Header
  position : Nat
  deriving DecidableEq

/-- A part of a transfer inside one sector: the file's sector `index`, there `count` bytes from
`start` on. -/
structure Piece where
  index : Nat
  start : Nat
  count : Nat
  deriving DecidableEq

/-- The pieces of the `count` bytes at `position`, one for each sector they touch. -/
def Piece.cover (position count : Nat) : List Piece :=
  if _ : count = 0 then []
  else
    let start := position % sectorSize
    let here := min count (sectorSize - start)
    ⟨position / sectorSize, start, here⟩ :: cover (position + here) (count - here)
  termination_by count
  decreasing_by
    have := Nat.mod_lt position (show 0 < sectorSize by decide)
    omega

namespace File

def load (sector : Nat) : DiskM File :=
  return ⟨sector, ← Header.load sector, 0⟩

def length (file : File) : Nat := file.header.length

def seek (file : File) (position : Nat) : File := { file with position }

/-- How many of `count` bytes at `position` lie before the end of the file. -/
def clip (file : File) (position count : Nat) : Nat :=
  if file.length ≤ position then 0 else min count (file.length - position)

/-- The disk sector a piece lies in. -/
def sectorOf (file : File) (piece : Piece) : Except Failure Nat :=
  file.header.sectorAt (piece.index * sectorSize)

def readPieces (file : File) : List Piece → DiskM (List UInt8)
  | [] => return []
  | piece :: rest => do
    let data ← Disk.read (← file.sectorOf piece)
    return (data.bytes.drop piece.start).take piece.count ++ (← file.readPieces rest)

/-- Up to `count` bytes at `position`. -/
def readAt (file : File) (position count : Nat) : DiskM (List UInt8) :=
  file.readPieces (Piece.cover position (file.clip position count))

/-- A sector with the bytes that `piece` covers taken from the front of `data`. -/
def patch (piece : Piece) (old : Sector) (data : List UInt8) : Sector :=
  .ofBytes (old.bytes.take piece.start ++ data.take piece.count ++
    old.bytes.drop (piece.start + piece.count))

/-- Writes sector by sector. A sector that is covered in part is read first, to keep the rest. -/
def writePieces (file : File) : List Piece → List UInt8 → DiskM Unit
  | [], _ => return
  | piece :: rest, data => do
    let sector ← file.sectorOf piece
    let old ← if piece.count < sectorSize then Disk.read sector else pure .zero
    Disk.write sector (patch piece old data)
    file.writePieces rest (data.drop piece.count)

/-- Writes `data` at `position` as far as the file reaches, and says how many bytes that were. -/
def writeAt (file : File) (position : Nat) (data : List UInt8) : DiskM Nat := do
  let count := file.clip position data.length
  file.writePieces (Piece.cover position count) data
  return count

/-- Moves the cursor over `count` bytes. -/
def advance (file : File) (count : Nat) : Except Failure File :=
  return file.seek (← Size.add file.position count)

/-- Reads at the cursor, which moves only if all bytes could be read. -/
def read (file : File) (count : Nat) : DiskM (List UInt8 × File) := do
  let bytes ← file.readAt file.position count
  return (bytes, ← file.advance bytes.length)

/-- Writes at the cursor, which moves only if all bytes could be written. -/
def write (file : File) (data : List UInt8) : DiskM (Nat × File) := do
  let count ← file.writeAt file.position data
  return (count, ← file.advance count)

end File

end SectorFS
