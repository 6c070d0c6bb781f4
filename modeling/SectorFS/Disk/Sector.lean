import SectorFS.Layout

/-! The bytes of one sector, as a device takes and gives them. -/

namespace SectorFS

structure Sector where
  bytes : List UInt8
  length_bytes : bytes.length = sectorSize
  deriving DecidableEq

namespace Sector

/-- A sector with `bytes` at its front and zeros behind them; what does not fit is dropped. -/
def ofBytes (bytes : List UInt8) : Sector where
  bytes := bytes.take sectorSize ++ List.replicate (sectorSize - bytes.length) 0
  length_bytes := by simp; omega

def zero : Sector := ⟨List.replicate sectorSize 0, by simp⟩

end Sector

end SectorFS
