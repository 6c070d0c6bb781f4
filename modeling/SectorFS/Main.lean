import SectorFS.Tool.Run

/-!
The command line tool. It reads the files that a command line names, runs on them, and writes the
image back.
-/

namespace SectorFS.Tool

/-- The content of a host file, if it can be read. -/
def fileContent? (name : String) : IO (Option (List UInt8)) := do
  match ← (IO.FS.readBinFile name).toBaseIO with
  | .ok bytes => return some bytes.data.toList
  | .error _ => return none

/-- A folder can be opened, but has no bytes to read. -/
def isFolder (name : String) : IO Bool := do
  match ← (IO.FS.Handle.mk name .read).toBaseIO with
  | .error _ => return false
  | .ok handle =>
    match ← (handle.read 1).toBaseIO with
    | .ok _ => return false
    | .error _ => return true

/-- The ways on which a name leads, each a step longer than the one before it. -/
def stages (name : String) : List (List Char) :=
  let chars := name.toList
  ((List.range (chars.length + 1)).filter fun i =>
    i ≠ 0 && (i == chars.length || chars[i]? == some Path.separator)).map chars.take

/-- The files and folders along the ways that names stand for. -/
def visibleHost (names : List String) : IO Host := do
  let mut host := Host.empty
  for name in names do
    for way in stages name do
      let text := String.ofList way
      if ← isFolder text then host := host.addFolder (.ofWay way)
      else if let some bytes ← fileContent? text then host := host.put (.ofWay way) (.ofBytes bytes)
  return host

/-- The host names that a command line refers to. -/
def hostNames (words : List String) : List String :=
  match Invocation.read words with
  | some ⟨image, .task (.put source _)⟩ => [image, source]
  | some ⟨image, _⟩ => [image]
  | none => []

/-- Writes the files that a run has made or changed. -/
def saveChanges (names : List String) (before after : Host) : IO Unit := do
  for name in names do
    if let some content := after.file? name then
      if before.file? name ≠ some content then IO.FS.writeBinFile name ⟨content.toBytes.toArray⟩

end SectorFS.Tool

open SectorFS.Tool in
def main (words : List String) : IO UInt32 := do
  let names := hostNames words
  let before ← visibleHost names
  let (outcome, after) := run before words
  saveChanges names before after
  let out ← IO.getStdout
  out.write ⟨outcome.output.toArray⟩
  out.flush
  (← IO.getStderr).putStr outcome.complaint
  return .ofNat outcome.code
