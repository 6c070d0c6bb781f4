import SectorFS.Layout
import SectorFS.Text.Quoted

/-!
How an operation can fail. An `Error` is a refusal that the caller may go on from; a `Fault` is a
broken precondition or an overflow, after which the run is over.
-/

namespace SectorFS

/-- Why a device, or the host system behind it, refused a request. -/
inductive DiskError where
  | noSectors
  | sectorOutOfRange
  | bufferNotOneSector
  | offsetTooLarge
  | shortRead
  | injected
  | fileMissing
  | isFolder
  | notAFolder
  | hostNameTooLong
  deriving DecidableEq, Repr

/-- The device's own name for the class of the failure. -/
def DiskError.kind : DiskError → String
  | .noSectors | .sectorOutOfRange | .bufferNotOneSector | .offsetTooLarge => "InvalidInput"
  | .shortRead => "UnexpectedEof"
  | .injected => "Other"
  | .fileMissing => "NotFound"
  | .isFolder => "IsADirectory"
  | .notAFolder => "NotADirectory"
  | .hostNameTooLong => "InvalidFilename"

def DiskError.text : DiskError → String
  | .noSectors => "disk must have at least one sector"
  | .sectorOutOfRange => "sector out of range"
  | .bufferNotOneSector => "buffer must be exactly one sector long"
  | .offsetTooLarge => "Invalid argument"
  | .shortRead => "failed to fill whole buffer"
  | .injected => "injected fault"
  | .fileMissing => "No such file or directory"
  | .isFolder => "Is a directory"
  | .notAFolder => "Not a directory"
  | .hostNameTooLong => "File name too long"

/-- The number under which the host system reports the failure, if it comes from there. -/
def DiskError.hostCode : DiskError → Option Nat
  | .offsetTooLarge => some 22
  | .fileMissing => some 2
  | .isFolder => some 21
  | .notAFolder => some 20
  | .hostNameTooLong => some 36
  | _ => none

def DiskError.message (e : DiskError) : String :=
  match e.hostCode with
  | some code => s!"{e.text} (os error {code})"
  | none => e.text

/-- What is wrong with an argument. -/
inductive ArgumentError where
  | fileName (name : String)
  | removal (path : String)
  deriving DecidableEq, Repr

def ArgumentError.message : ArgumentError → String
  | .fileName name => s!"invalid file name {Text.quote name}"
  | .removal path => s!"cannot remove {Text.quote path}"

/-- What is wrong with the structures read from a disk. -/
inductive LayoutError where
  | headerSizes (sector : Nat) (bytes sectors : Int)
  | chainTooLong (limit sector : Nat)
  | diskTooSmall (sectors : Nat)
  | freeMapLength (bytes sectors : Nat)
  | rootLength (bytes : Nat)
  | systemSectorsFree
  deriving DecidableEq, Repr

def LayoutError.message : LayoutError → String
  | .headerSizes sector bytes sectors =>
    s!"file header at sector {sector} claims {bytes} bytes in {sectors} sectors"
  | .chainTooLong limit sector =>
    s!"index block chain continues past {limit} blocks at sector {sector}"
  | .diskTooSmall sectors => s!"disk of {sectors} sectors is too small"
  | .freeMapLength bytes sectors =>
    s!"free map of {bytes} bytes does not match a disk of {sectors} sectors"
  | .rootLength bytes => s!"root directory file has a length of {bytes} bytes"
  | .systemSectorsFree => "system file headers are not marked in use"

inductive Error where
  | invalidArgument (cause : ArgumentError)
  | nameTooLong
  | notFound
  | alreadyExists
  | notADirectory
  | directoryNotEmpty
  | directoryFull
  | noHeaderSector
  | noSpace
  | fileInUse
  | badDescriptor (id : Nat)
  | noDescriptor
  | isADirectory
  | invalidLayout (cause : LayoutError)
  | io (cause : DiskError)
  deriving DecidableEq, Repr

def Error.kind : Error → String
  | .invalidArgument _ => "InvalidArgument"
  | .nameTooLong => "NameTooLong"
  | .notFound => "NotFound"
  | .alreadyExists => "AlreadyExists"
  | .notADirectory => "NotADirectory"
  | .directoryNotEmpty => "DirectoryNotEmpty"
  | .directoryFull => "DirectoryFull"
  | .noHeaderSector => "NoHeaderSector"
  | .noSpace => "NoSpace"
  | .fileInUse => "FileInUse"
  | .badDescriptor _ => "BadDescriptor"
  | .noDescriptor => "NoDescriptor"
  | .isADirectory => "IsADirectory"
  | .invalidLayout _ => "InvalidLayout"
  | .io _ => "Io"

def Error.message : Error → String
  | .invalidArgument cause => s!"invalid argument: {cause.message}"
  | .nameTooLong => s!"file name longer than {nameLimit} bytes"
  | .notFound => "found no file at path"
  | .alreadyExists => "file already exists"
  | .notADirectory => "path component is not a directory"
  | .directoryNotEmpty => "directory is not empty"
  | .directoryFull => "directory has no free entry"
  | .noHeaderSector => "no free sector for a file header"
  | .noSpace => "not enough free sectors"
  | .fileInUse => "file is open"
  | .badDescriptor id => s!"bad file descriptor {id}"
  | .noDescriptor => "no file descriptor left"
  | .isADirectory => "file is a directory"
  | .invalidLayout cause => s!"invalid file system layout: {cause.message}"
  | .io cause => s!"disk failure: {cause.message}"

/-- The structures that formatting has to place on a disk. -/
inductive SystemPart where
  | headers
  | freeMap
  | rootDirectory
  deriving DecidableEq, Repr

def SystemPart.name : SystemPart → String
  | .headers => "system file headers"
  | .freeMap => "free map"
  | .rootDirectory => "root directory"

inductive Fault where
  | addOverflow
  | multiplyOverflow
  | bufferTooLarge
  | paddingTooWide
  | outsideMap (sector : Nat)
  | alreadyFree (sector : Nat)
  | mapTooShort (sectors : Nat)
  | chainInUse
  | chainTooShort (blocks index block : Nat)
  | emptySlot (sector slot : Nat)
  | relativePath (path : String)
  | diskTooSmall (sectors : Nat) (part : SystemPart)
  | directoryCycle
  deriving DecidableEq, Repr

def Fault.message : Fault → String
  | .addOverflow => "attempt to add with overflow"
  | .multiplyOverflow => "attempt to multiply with overflow"
  | .bufferTooLarge => "capacity overflow"
  | .paddingTooWide => "Formatting argument out of range"
  | .outsideMap sector => s!"Sector {sector} is outside the bitmap."
  | .alreadyFree sector => s!"Sector {sector} is already free."
  | .mapTooShort sectors => s!"Buffer too short for a bitmap of {sectors} bits."
  | .chainInUse => "Index block chain is already allocated."
  | .chainTooShort blocks index block =>
    s!"Index block chain has {blocks} blocks but sector {index} lives in block {block}."
  | .emptySlot sector slot =>
    s!"Index block at sector {sector} has no data sector in slot {slot}."
  | .relativePath path => s!"Path {Text.quote path} must start with \"/\"."
  | .diskTooSmall sectors part => s!"Disk of {sectors} sectors cannot hold the {part.name}."
  | .directoryCycle => "A directory contains itself."

inductive Failure where
  | error (cause : Error)
  | fault (cause : Fault)
  deriving DecidableEq, Repr

end SectorFS
