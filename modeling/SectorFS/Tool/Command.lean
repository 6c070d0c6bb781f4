import SectorFS.Size
import SectorFS.Tool.Arguments

/-!
The commands of the tool and how they are written.
-/

namespace SectorFS.Tool

/-- What can be done on the volume of an image. -/
inductive Task where
  /-- Copies a host file into the volume. -/
  | put (source path : String)
  | cat (path : String)
  | rm (path : String)
  | mkdir (path : String)
  | ls (path : String) (recursive : Bool)
  | dump
  deriving DecidableEq, Repr

inductive Command where
  /-- Makes an image that holds an empty volume. -/
  | format (sectors : Nat)
  | task (task : Task)
  deriving DecidableEq, Repr

/-- A command and the image file it is for. -/
structure Invocation where
  image : String
  command : Command
  deriving DecidableEq, Repr

namespace Invocation

def imageSwitch : Switch := ⟨"image", 'i', true⟩

def sectorsSwitch : Switch := ⟨"sectors", 's', true⟩

def recursiveSwitch : Switch := ⟨"recursive", 'r', false⟩

def defaultImage : String := "disk.img"

def defaultSectors : Nat := 1024

/-- A count in decimal digits, with or without a plus sign before them. -/
def readCount (text : String) : Option Nat := do
  let digits := match text.toList with
    | '+' :: rest => rest
    | chars => chars
  guard (!digits.isEmpty && digits.all Char.isDigit)
  let count := digits.foldl (fun value c => 10 * value + (c.toNat - '0'.toNat)) 0
  guard (count < Size.limit)
  return count

/-- A host file name cannot be empty. -/
def readHostName (text : String) : Option String := if text.isEmpty then none else some text

/-- The operands of a command that has no options. -/
def operandsOnly (words : List String) : Option (List String) := do
  return (← Arguments.read [] true words).operands

def readFormat (words : List String) : Option Command := do
  let arguments ← Arguments.read [sectorsSwitch] true words
  guard arguments.operands.isEmpty
  match arguments.value? sectorsSwitch with
  | some text => return .format (← readCount text)
  | none => return .format defaultSectors

def readPut (words : List String) : Option Task := do
  match ← operandsOnly words with
  | [source, path] => return .put (← readHostName source) path
  | _ => none

/-- A task for one path. -/
def readPath (task : String → Task) (words : List String) : Option Task := do
  match ← operandsOnly words with
  | [path] => return task path
  | _ => none

def readLs (words : List String) : Option Task := do
  let arguments ← Arguments.read [recursiveSwitch] true words
  let recursive := (arguments.value? recursiveSwitch).isSome
  match arguments.operands with
  | [] => return .ls "/" recursive
  | [path] => return .ls path recursive
  | _ => none

def readDump (words : List String) : Option Task := do
  guard (← operandsOnly words).isEmpty
  return .dump

def readCommand (name : String) (words : List String) : Option Command :=
  match name with
  | "format" => readFormat words
  | "put" => (readPut words).map .task
  | "cat" => (readPath .cat words).map .task
  | "rm" => (readPath .rm words).map .task
  | "mkdir" => (readPath .mkdir words).map .task
  | "ls" => (readLs words).map .task
  | "dump" => (readDump words).map .task
  | _ => none

/-- Reads a whole command line. The image is named before the command. -/
def read (words : List String) : Option Invocation := do
  let arguments ← Arguments.read [imageSwitch] false words
  let image ← readHostName ((arguments.value? imageSwitch).getD defaultImage)
  match arguments.operands with
  | name :: rest => return ⟨image, ← readCommand name rest⟩
  | [] => none

end Invocation

end SectorFS.Tool
