import SectorFS.File.Header

/-!
A file's data as text, one line for each of its sectors.
-/

namespace SectorFS.Header

/-- Printable ASCII shows as itself, any other byte as a backslash and its value in hexadecimal. -/
def renderByte (b : UInt8) : List Char :=
  if 0x20 ≤ b && b ≤ 0x7e then [Char.ofNat b.toNat] else '\\' :: Nat.toDigits 16 b.toNat

def renderLine (bytes : List UInt8) : String :=
  String.ofList (bytes.flatMap renderByte ++ ['\n'])

/-- The lines of the given sectors, of which `remaining` bytes belong to the file. -/
def contentLines : List Nat → Nat → DiskM (List String)
  | [], _ => return []
  | sector :: rest, remaining => do
    let shown := min remaining sectorSize
    let line := renderLine ((← Disk.read sector).bytes.take shown)
    return line :: (← contentLines rest (remaining - shown))

def contents (header : Header) : DiskM String :=
  return String.join (← contentLines header.dataSectors header.length)

end SectorFS.Header
