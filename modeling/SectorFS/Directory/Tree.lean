import SectorFS.Directory.Basic

/-!
The listing of a directory with everything below it, in the order of the tables, parents before
their children.
-/

namespace SectorFS

/-- The most spaces that can stand before an entry. -/
def widestPadding : Nat := 65535

/-- The line of an entry `depth` levels down. -/
def Entry.line (entry : Entry) (depth : Nat) : Except Failure String := do
  let width ← Size.mul depth 4
  if widestPadding < width then throw (.fault .paddingTooWide)
  let mark := if entry.isDirectory then "[D] " else "[F] "
  return String.ofList (List.replicate width ' ') ++ mark ++ entry.name ++ "\n"

namespace Directory

/-- The listing of `dir` at `depth`, on ways of at most `levels` directories, `dir` included. -/
def treeWithin : (levels depth : Nat) → Directory → DiskM String
  | 0, _, _ => throw (.fault .directoryCycle)
  | levels + 1, depth, dir => do
    let parts ← dir.entries.mapM fun entry => do
      let line ← entry.line depth
      if entry.isDirectory then
        let below ← load (← File.load entry.sector)
        return line ++ (← treeWithin levels (depth + 1) below)
      else return line
    return String.join parts

/-- The listing of `dir` at `depth`. The directories below `dir` on one way down have header sectors
of their own, so a way with more of them than the disk has sectors runs in a circle. -/
def tree (dir : Directory) (depth : Nat) : DiskM String := fun disk =>
  dir.treeWithin (disk.sectorCount + 1) depth disk

end Directory

end SectorFS
