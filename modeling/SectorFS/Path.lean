import SectorFS.Failure

/-!
Paths from the root directory. A path names its components; how often the separator stands between
them does not matter.
-/

namespace SectorFS.Path

def separator : Char := '/'

/-- Relative paths are a fault of the caller. -/
def requireAbsolute (path : String) : Except Failure Unit :=
  if path.toList.head? = some separator then .ok () else .error (.fault (.relativePath path))

/-- The names in a text, each a longest run without a separator. -/
def namesIn : List Char → List String
  | [] => []
  | c :: rest =>
    if c = separator then namesIn rest
    else
      String.ofList (c :: rest.takeWhile (· != separator)) ::
        namesIn (rest.dropWhile (· != separator))
  termination_by chars => chars.length
  decreasing_by
    · simp
    · have := (List.dropWhile_sublist (· != separator) (l := rest)).length_le
      simp only [List.length_cons]
      omega

/-- The names along a path. -/
def components (path : String) : List String := namesIn path.toList

/-- The text before the last separator and the text behind it. -/
def splitLast (path : String) : String × String :=
  let back := path.toList.reverse
  (String.ofList ((back.dropWhile (· != separator)).drop 1).reverse,
    String.ofList (back.takeWhile (· != separator)).reverse)

/-- A path as the way to a directory and the name of a node in it, which is empty when the path
ends in a separator. -/
def split (path : String) : Except Failure (String × String) := do
  requireAbsolute path
  return splitLast path

end SectorFS.Path
