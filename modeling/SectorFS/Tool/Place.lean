import SectorFS.Path

/-!
Places on the host system and the ways to them. A way is a text of names between separators, in
which two dots lead to the folder above.
-/

namespace SectorFS.Tool

/-- Where a way starts: in the root folder, or this many folders above the working folder. -/
inductive Origin where
  | root
  | working (above : Nat)
  deriving DecidableEq, Repr

/-- A place on the host, as the names on the shortest way to it. -/
structure Place where
  origin : Origin
  names : List String
  deriving DecidableEq, Repr

namespace Place

/-- The folder above a place. The root folder is above itself. -/
def parent (place : Place) : Place :=
  match place.names, place.origin with
  | [], .root => place
  | [], .working above => ⟨.working (above + 1), []⟩
  | names, origin => ⟨origin, names.dropLast⟩

/-- One step from a folder. An empty step, as between two separators, stays there. -/
def step (place : Place) (name : String) : Place :=
  if name = "" || name = "." then place
  else if name = ".." then place.parent
  else ⟨place.origin, place.names ++ [name]⟩

/-- The first step of a way and those behind it, a step at each separator. -/
def splitWay : List Char → List Char × List (List Char)
  | [] => ([], [])
  | c :: rest =>
    let (first, later) := splitWay rest
    if c = Path.separator then ([], first :: later) else (c :: first, later)

def steps (way : List Char) : List String :=
  let (first, later) := splitWay way
  (first :: later).map String.ofList

def start (way : List Char) : Place :=
  ⟨if way.head? = some Path.separator then .root else .working 0, []⟩

/-- Where a way leads if nothing stops it. -/
def ofWay (way : List Char) : Place := (steps way).foldl step (start way)

/-- The way to the folder in which the last step of a way is made. -/
def enclosing (way : List Char) : List Char :=
  ((way.reverse.dropWhile (· = Path.separator)).dropWhile (· ≠ Path.separator)).reverse

end Place

end SectorFS.Tool
