import SectorFS.Proofs.File.Bytes
import SectorFS.Proofs.Volume.Namespace
import SectorFS.Proofs.Volume.Run

/-!
# What actions do

Two views of a mounted volume, and what each action does to them by how it ends. `Namespace.Step` is
about names and sizes. `View.Step` is about the bytes of the files and the open descriptors.
`Action.Faults` lists the faults that are the caller's to avoid.
-/

namespace SectorFS

namespace Namespace

/-- The path is that of the root, or its name is in use in the directory before it. -/
def Names (T : Namespace) (path : String) : Prop :=
  path = "/" ∨ ∃ slots, T (Path.parent path) = some (.directory slots) ∧
    some (Path.leaf path) ∈ slots

/-- What an action that ends with `outcome` makes of the namespace. -/
def Step (T T' : Namespace) : (action : Action) → (outcome : Except Failure Answer) → Prop
  | .request (.create path size), .ok _ =>
    T.Made (Path.parent path) (Path.leaf path) (.file size) T'
  | .request (.create path _), .error _ => ∃ k, T.Grown ((Path.parent path).take k) T'
  | .request (.makeDirectory path), .ok _ =>
    T.Made (Path.parent path) (Path.leaf path) emptyDirectory T'
  | .request (.makeDirectory path), .error _ => ∃ k, T.Grown ((Path.parent path).take k) T'
  | .request (.openPath path), .ok _ => T' = T ∧ T.Names path
  | .request (.openPath path), .error _ =>
    (∃ k, T.Grown ((Path.parent path).take k) T') ∧ ¬ T.Names path
  | .request (.remove path), .ok _ =>
    (∃ item, T (Path.target path) = some item) ∧
      T' = T.remove (Path.parent path) (Path.leaf path)
  | .request (.list path), .ok answer => T' = T ∧
    ∃ slots, T (Path.components path) = some (.directory slots) ∧
      answer = .names (slots.filterMap id)
  | .request (.list path), .error _ => T' = T ∧
    ∀ slots, T (Path.components path) ≠ some (.directory slots)
  | _, _ => T' = T

end Namespace

/-- The descriptor with its cursor at `position`. -/
def Descriptor.seek (d : Descriptor) (position : Nat) : Descriptor :=
  { d with file := d.file.seek position }

/-- The header sector and the bytes of every file, by its path, and the open descriptors. -/
structure View where
  files : List String → Option (Nat × List UInt8)
  under : Nat → Option Descriptor

namespace View

/-- The file that the descriptor is for is at `path` and holds `bytes`. -/
def Shows (v : View) (d : Descriptor) (path : List String) (bytes : List UInt8) : Prop :=
  v.files path = some (d.file.sector, bytes)

/-- What an action that ends with `outcome` makes of the files and descriptors. -/
def Step (v v' : View) : (action : Action) → (outcome : Except Failure Answer) → Prop
  | .request (.create path size), .ok _ => v.files (Path.target path) = none ∧
    ∃ s bytes, bytes.length = size ∧ v'.under = v.under ∧
      v'.files = Function.update v.files (Path.target path) (some (s, bytes))
  | .request (.remove path), .ok _ => v'.under = v.under ∧
    v'.files = Function.update v.files (Path.target path) none
  | .request (.openPath path), .ok answer => ∃ id d, answer = .descriptor id ∧
    v.under id = none ∧ d.file.position = 0 ∧
    (d.isDirectory = false → ∃ bytes, v.Shows d (Path.target path) bytes) ∧
    v' = { v with under := Function.update v.under id (some d) }
  | .request (.read id count), .ok answer => ∃ d bytes, v.under id = some d ∧
    answer = .bytes bytes ∧
    (d.isDirectory = false → ∃ path content, v.Shows d path content ∧
      bytes.length = min count (content.length - d.file.position) ∧
      bytes = (content.drop d.file.position).take bytes.length) ∧
    v' = { v with
      under := Function.update v.under id (some (d.seek (d.file.position + bytes.length))) }
  | .request (.read id _), .error _ => v.under id = none ∧ v' = v
  | .request (.write id data), .ok answer => ∃ d path content count, v.under id = some d ∧
    d.isDirectory = false ∧ v.Shows d path content ∧ answer = .number count ∧
    count = min data.length (content.length - d.file.position) ∧
    v'.files = Function.update v.files path
      (some (d.file.sector, overlay content d.file.position (data.take count))) ∧
    v'.under = Function.update v.under id (some (d.seek (d.file.position + count)))
  | .request (.write id _), .error _ =>
    (∀ d, v.under id = some d → d.isDirectory = true) ∧ v' = v
  | .request (.seek id position), .ok _ => ∃ d, v.under id = some d ∧
    v' = { v with under := Function.update v.under id (some (d.seek position)) }
  | .request (.seek id _), .error _ => v.under id = none ∧ v' = v
  | .request (.length id), .ok answer => v' = v ∧ ∃ d length, v.under id = some d ∧
    answer = .number length ∧
    (d.isDirectory = false → ∃ path content, v.Shows d path content ∧ content.length = length)
  | .request (.length id), .error _ => v.under id = none ∧ v' = v
  | .request (.close id), .ok _ => (∃ d, v.under id = some d) ∧
    v' = { v with under := Function.update v.under id none }
  | .request (.close id), .error _ => v.under id = none ∧ v' = v
  | .remount, outcome => outcome = .ok .done ∧ v' = { v with under := fun _ => none }
  | _, _ => v' = v

end View

namespace Action

/-- The faults that an action can end in: a path that does not start at the root, a size so large
that rounding it up overflows, and a listing that is indented too far. -/
inductive Faults : Action → Fault → Prop where
  | relative {action path} : action.path? = some path → ¬ Path.Absolute path →
      Faults action (.relativePath path)
  | large {path size} : Size.limit ≤ size + sectorSize →
      Faults (.request (.create path size)) .addOverflow
  | padding {path} : Faults (.request (.tree path)) .paddingTooWide

end Action

end SectorFS
