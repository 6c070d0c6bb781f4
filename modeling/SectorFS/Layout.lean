/-! The fixed measures of the format. -/

namespace SectorFS

/-- Bytes in a sector, the unit of transfer and of allocation. -/
def sectorSize : Nat := 128

/-- Data sectors listed by one index block: the rest of a sector of 32-bit words after its link. -/
def slotsPerBlock : Nat := 31

/-- The longest file or directory name, in bytes. -/
def nameLimit : Nat := 12

/-- Bytes of one directory slot on disk. -/
def slotSize : Nat := 20

/-- Slots in every directory of a volume. -/
def directoryCapacity : Nat := 64

/-- Where the header of the free map lies. -/
def freeMapSector : Nat := 0

/-- Where the header of the root directory lies. -/
def rootSector : Nat := 1

end SectorFS
