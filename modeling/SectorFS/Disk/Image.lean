import SectorFS.Disk.Sector

/-!
The medium under a disk: a string of bytes with a length of its own, which need not end at a whole
sector. It grows when it is written past its end, and the gap reads as zeros.
-/

namespace SectorFS

/-- Whole sectors, then the bytes of a last one that is not whole. -/
structure Image where
  sectors : Array Sector
  tail : List UInt8
  length_tail : tail.length < sectorSize
  deriving DecidableEq

namespace Image

def empty : Image := ⟨#[], [], by decide⟩

/-- In bytes. -/
def size (image : Image) : Nat := sectorSize * image.sectors.size + image.tail.length

def toBytes (image : Image) : List UInt8 :=
  image.sectors.toList.flatMap Sector.bytes ++ image.tail

/-- The first `count` sectors of a string of bytes. -/
def sectorsOf : (count : Nat) → List UInt8 → List Sector
  | 0, _ => []
  | count + 1, bytes =>
    .ofBytes (bytes.take sectorSize) :: sectorsOf count (bytes.drop sectorSize)

def ofBytes (bytes : List UInt8) : Image where
  sectors := (sectorsOf (bytes.length / sectorSize) bytes).toArray
  tail := bytes.drop (sectorSize * (bytes.length / sectorSize))
  length_tail := by
    have := Nat.mod_lt bytes.length (show 0 < sectorSize by decide)
    have := Nat.div_add_mod bytes.length sectorSize
    simp only [List.length_drop]
    omega

/-- A sector that lies in the image as a whole. -/
def sector? (image : Image) (sector : Nat) : Option Sector := image.sectors[sector]?

/-- The bytes of a sector as far as the image has them. -/
def bytesAt (image : Image) (sector : Nat) : List UInt8 :=
  match image.sector? sector with
  | some data => data.bytes
  | none => if sector = image.sectors.size then image.tail else []

/-- A sector with zeros for the bytes that the image lacks. -/
def padded (image : Image) (sector : Nat) : Sector :=
  match image.sector? sector with
  | some data => data
  | none => if sector = image.sectors.size then .ofBytes image.tail else .zero

/-- Folds over the bytes from the first to the last. -/
def foldl (f : β → UInt8 → β) (start : β) (image : Image) : β :=
  image.tail.foldl f (image.sectors.foldl (fun acc sector => sector.bytes.foldl f acc) start)

/-- Fills up to `count` whole sectors with zeros; a longer image stays as it is. -/
def extend (image : Image) (count : Nat) : Image :=
  if count ≤ image.sectors.size then image
  else
    { sectors := image.sectors.push (.ofBytes image.tail) ++
        Array.replicate (count - image.sectors.size - 1) .zero
      tail := []
      length_tail := by decide }

/-- Replaces one sector, growing the image to hold it. -/
def write (image : Image) (sector : Nat) (data : Sector) : Image :=
  let ⟨sectors, tail, length_tail⟩ := image.extend (sector + 1)
  ⟨sectors.setIfInBounds sector data, tail, length_tail⟩

/-- Zeros in the first `count` sectors; what lies behind them stays. -/
def clear (image : Image) (count : Nat) : Image :=
  let ⟨sectors, tail, length_tail⟩ := image.extend count
  ⟨sectors.mapIdx fun i sector => if i < count then .zero else sector, tail, length_tail⟩

/-- Cuts the image at `size` bytes, or fills it up to there. -/
def resize (image : Image) (size : Nat) : Image where
  sectors := Array.ofFn fun i : Fin (size / sectorSize) => image.padded i
  tail := (image.padded (size / sectorSize)).bytes.take (size % sectorSize)
  length_tail := by
    have := Nat.mod_lt size (show 0 < sectorSize by decide)
    simp only [List.length_take]
    omega

/-- Puts bytes at any place, growing the image to hold them. Putting none grows nothing. The bytes
are laid between those of the first and of the last sector that they share with others. -/
def splice (image : Image) (offset : Nat) (data : List UInt8) : Image :=
  if data.isEmpty then image
  else
    let stop := offset + data.length
    let grown := if image.size < stop then image.resize stop else image
    let first := offset / sectorSize
    let part := ofBytes ((grown.bytesAt first).take (offset % sectorSize) ++ data ++
      (grown.bytesAt (stop / sectorSize)).drop (stop % sectorSize))
    { sectors := grown.sectors.extract 0 first ++ part.sectors ++
        grown.sectors.extract (first + part.sectors.size)
      tail := if part.tail.isEmpty then grown.tail else part.tail
      length_tail := by
        split
        · exact grown.length_tail
        · exact part.length_tail }

end Image

end SectorFS
