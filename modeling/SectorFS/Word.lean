/-!
The 32-bit words of which records are made, lowest byte first, and how a word names a sector.
-/

namespace SectorFS.Word

def toBytes (w : UInt32) : List UInt8 :=
  [.ofNat w.toNat, .ofNat (w.toNat / 0x100), .ofNat (w.toNat / 0x10000),
    .ofNat (w.toNat / 0x1000000)]

def ofBytes (a b c d : UInt8) : UInt32 :=
  .ofNat (a.toNat + 0x100 * b.toNat + 0x10000 * c.toNat + 0x1000000 * d.toNat)

/-- The words that the bytes spell; up to three bytes left over are dropped. -/
def decode : List UInt8 → List UInt32
  | a :: b :: c :: d :: rest => ofBytes a b c d :: decode rest
  | _ => []

/-- The word that names no sector. Every word with its top bit set reads as no sector, this one is
what is written. -/
def noSector : UInt32 := 0xffffffff

def sector? (w : UInt32) : Option Nat :=
  if w.toNat < 0x80000000 then some w.toNat else none

/-- Sector numbers keep their low 32 bits. -/
def ofSector? : Option Nat → UInt32
  | some sector => .ofNat sector
  | none => noSector

/-- The word as a signed number. -/
def toSigned (w : UInt32) : Int :=
  if w.toNat < 0x80000000 then w.toNat else (w.toNat : Int) - 0x100000000

end SectorFS.Word
