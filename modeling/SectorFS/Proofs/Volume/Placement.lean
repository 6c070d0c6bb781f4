import SectorFS.Proofs.Volume.Observe
import SectorFS.Proofs.Volume.Paths
import SectorFS.Proofs.Volume.Reachable

/-!
# Whether a new node finds its place

Six checks stand between a new node and its place in a directory that is there, and `refusal?` says
which of them fails first. Of the free map they ask only how many sectors are free. Which ones these
are makes no difference: `Catalog.runs_make`, `Run.make_ends`.
-/

namespace SectorFS

open Catalog Volume

/-- The check that a new node called `name` fails first, in a directory with `slots`, while `free`
sectors are free and its data and index blocks take `span` of them. -/
def refusal? (slots : List (Option String)) (name : String) (free span : Nat) : Option Error :=
  if some name ∈ slots then some .alreadyExists
  else if free = 0 then some .noHeaderSector
  else if name.toList = [] ∨ '\x00' ∈ name.toList then some (.invalidArgument (.fileName name))
  else if nameLimit < (Text.encodeUtf8 name).length then some .nameTooLong
  else if none ∉ slots then some .directoryFull
  else if free - 1 < span then some .noSpace
  else none

/-- The path at which a request makes a node, the bytes of the node, and whether it is a directory.
-/
def Request.node? : Request → Option (String × Nat × Bool)
  | .create path size => some (path, size, false)
  | .makeDirectory path => some (path, directoryCapacity * slotSize, true)
  | _ => none

/-- A name that is not in use is reserved unless one of the other checks fails. -/
theorem reserveNode_of_fresh (map : FreeMap) {dir : Directory} {name : String} {size : Nat}
    (tidy : dir.Tidy) (fresh : some name ∉ dir.labels) (whole : '/' ∉ name.toList)
    (bounded : size + sectorSize < Size.limit) (isDirectory : Bool) :
    match refusal? dir.labels name map.freeCount (Extent.span size) with
    | some cause => reserveNode map dir name size isDirectory = .error (.error cause)
    | none => ∃ found, reserveNode map dir name size isDirectory = .ok found ∧
        Reserved map dir name size isDirectory found := by
  rw [refusal?, if_neg fresh, reserveNode]
  cases claim : map.claim? with
  | none =>
    rw [if_pos (FreeMap.claim?_eq_none_iff_freeCount.mp claim)]
    rfl
  | some claimed =>
    obtain ⟨sector, map₁⟩ := claimed
    have left := FreeMap.freeCount_claimed claim
    obtain ⟨-, -, -, rfl⟩ := FreeMap.claim?_eq_some claim
    have refused {e : Error} (h : NameField.ofName name = .error e) :
        dir.add name sector isDirectory = .error e := by
      rw [Directory.add, h]
      rfl
    have named := NameField.ofName_eq whole
    rw [if_neg (by omega)]
    by_cases bad : name.toList = [] ∨ '\x00' ∈ name.toList
    · rw [if_pos bad] at named ⊢
      simp only [refused named]
      rfl
    · rw [if_neg bad] at named ⊢
      by_cases long : nameLimit < (Text.encodeUtf8 name).length
      · rw [if_pos long] at named ⊢
        simp only [refused named]
        rfl
      · rw [if_neg long] at named ⊢
        rcases tidy.add_of_fresh named fresh sector isDirectory with ⟨room, dir', added⟩ |
          ⟨full, added⟩
        · have extent : Header.empty.allocate (map.mark sector true) size = _ :=
            Header.allocate_empty bounded
          rw [show (map.mark sector true).freeCount = map.freeCount - 1 by omega] at extent
          rw [if_neg (not_not.mpr room)]
          by_cases tight : map.freeCount - 1 < Extent.span size
          · rw [if_pos tight] at extent ⊢
            simp only [added, extent]
            rfl
          · rw [if_neg tight] at extent ⊢
            simp only [added, extent]
            exact ⟨_, rfl, claim, added, extent⟩
        · rw [if_pos full]
          simp only [added]
          rfl

namespace Catalog

variable {c : Catalog} {n : Nat} {store : Store} {map : FreeMap} {volume : Volume}

/-- In a directory that is there, a node is made unless one of the checks fails, and then nothing is
written. -/
theorem runs_make (l : c.LaidOut n store map) (known : volume.Over c n) {request : Request}
    {path : String} {size : Nat} {isDirectory : Bool}
    (makes : request.node? = some (path, size, isDirectory)) (absolute : Path.Absolute path)
    {t : Nat} {dir : Directory} (way : c.find? (Path.parent path) = some t)
    (table : c.table? t = some dir) (bounded : size + sectorSize < Size.limit) :
    match refusal? dir.labels (Path.leaf path) map.freeCount (Extent.span size) with
    | some cause => Runs n store (volume.perform request) (.error (.error cause)) []
    | none => ∃ (found : NewNode) (ins : Insertion n c) (ws : Writes),
        Runs n store (volume.perform request) (.ok (.done, volume)) ws ∧
        Reserved map dir (Path.leaf path) size isDirectory found ∧
        ins.Reserves t dir (Path.leaf path) size isDirectory found ∧
        ins.Placed store ws found.map := by
  obtain ⟨extent, file, hnode, hf, place⟩ := runs_placeFor_of_find? l known absolute way table
  by_cases taken : some (Path.leaf path) ∈ dir.labels
  · rw [if_pos taken] at place
    rw [refusal?, if_pos taken]
    cases request with
    | create | makeDirectory =>
      cases makes
      exact .stop (.stop place)
    | _ => cases makes
  · rw [if_neg taken] at place
    have tidy := l.valid.tidy t dir table
    have outcome := reserveNode_of_fresh map tidy taken Path.separator_notMem_leaf bounded
      isDirectory
    cases refused : refusal? dir.labels (Path.leaf path) map.freeCount (Extent.span size) with
    | some cause =>
      rw [refused] at outcome
      cases request with
      | create target size' =>
        cases makes
        exact .stop (.andThen place (runs_addFile_of_error l known outcome))
      | makeDirectory target =>
        cases makes
        exact .stop (.andThen place (.stop (runs_addDirectory_of_error l known outcome)))
      | _ => cases makes
    | none =>
      rw [refused] at outcome
      obtain ⟨found, hfound, reserved⟩ := outcome
      cases request with
      | create target size' =>
        cases makes
        obtain ⟨ins, ws, add, reserves, placed, -⟩ := tries_addFile (K := fun _ => True)
          (Q := fun _ => True) l known hnode hf hfound reserved trivial
        exact ⟨found, ins, ws, .finish (.andThen place add.runs) (.done _), reserved, reserves,
          placed⟩
      | makeDirectory target =>
        cases makes
        obtain ⟨ins, ws, add, reserves, placed⟩ := tries_addDirectory (K := fun _ => True)
          (Q := fun _ => True) l known hnode hf hfound reserved fun _ _ => trivial
        exact ⟨found, ins, ws, .finish (.andThen place (.finish add.runs (.done _))) (.done _),
          reserved, reserves, placed⟩
      | _ => cases makes

end Catalog

/-- What the number of free sectors is read as. -/
theorem Volume.Mounted.look_freeCount {volume : Volume} {disk : Disk} {n : Nat} {c : Catalog}
    {map : FreeMap} (m : volume.Mounted disk n c map) :
    disk.look volume.freeCount = some map.freeCount :=
  Disk.look_of_runs m.sound (runs_freeCount m.laidOut m.known)

variable {n : Nat} {past : List Action} {volume : Volume} {disk : Disk}

/-- In a directory that is there, making a file or a directory ends as the checks say. A refusal
writes nothing, and what is made lowers the number of free sectors by those that it takes. -/
theorem Run.make_ends {request : Request} {path : String} {size : Nat} {isDirectory : Bool}
    {slots : List (Option String)} (large : 15 ≤ n) (small : n ≤ diskLimit)
    (run : Run n past volume disk) (makes : request.node? = some (path, size, isDirectory))
    (absolute : Path.Absolute path)
    (there : disk.toNamespace (Path.parent path) = some (.directory slots))
    (bounded : size + sectorSize < Size.limit) :
    ∃ free, disk.look volume.freeCount = some free ∧
      match refusal? slots (Path.leaf path) free (Extent.span size) with
      | some cause => ∃ disk', volume.perform request disk = .error (.error cause) disk' ∧
          disk.Untouched disk'
      | none => ∃ disk', volume.perform request disk = .ok (.done, volume) disk' ∧
          disk'.look volume.freeCount = some (free - 1 - Extent.span size) := by
  obtain ⟨c, map, m, -⟩ := run.mounted large small
  have ⟨sound, l, known⟩ := m
  rw [m.toNamespace_eq] at there
  obtain ⟨t, dir, way, table, rfl⟩ := toNamespace_eq_directory_iff.mp there
  have outcome := runs_make l known makes absolute way table bounded
  refine ⟨map.freeCount, m.look_freeCount, ?_⟩
  cases refused : refusal? dir.labels (Path.leaf path) map.freeCount (Extent.span size) with
  | some cause =>
    rw [refused] at outcome
    obtain ⟨disk', ends, wrote⟩ := outcome.ends sound
    exact ⟨disk', ends, wrote.untouched⟩
  | none =>
    rw [refused] at outcome
    obtain ⟨found, ins, ws, runs, -, reserves, placed⟩ := outcome
    obtain ⟨disk', ends, wrote⟩ := runs.ends sound
    have m' := m.insertion placed wrote
    have counted := ins.freeCount_result l m'.laidOut
    rw [reserves.size] at counted
    have left : map.freeCount - 1 - Extent.span size = found.map.freeCount := by
      omega
    rw [left]
    exact ⟨disk', ends, m'.look_freeCount⟩

theorem make_ends_create : ∃ volume disk slots, Run 40 sample volume disk ∧
    disk.toNamespace (Path.parent "/c") = some (.directory slots) ∧
    ∃ free, disk.look volume.freeCount = some free ∧
      match refusal? slots (Path.leaf "/c") free (Extent.span 300) with
      | some cause => ∃ disk',
          volume.perform (.create "/c" 300) disk = .error (.error cause) disk' ∧
          disk.Untouched disk'
      | none => ∃ disk', volume.perform (.create "/c" 300) disk = .ok (.done, volume) disk' ∧
          disk'.look volume.freeCount = some (free - 1 - Extent.span 300) := by
  obtain ⟨volume, disk, run⟩ := exists_run_sample
  obtain ⟨c, map, m, -⟩ := run.mounted (by decide) (by decide)
  obtain ⟨slots, root⟩ := m.laidOut.valid.tree.root
  have there : disk.toNamespace (Path.parent "/c") = some (.directory slots) := by
    rw [m.toNamespace_eq, show Path.parent "/c" = [] by decide +kernel]
    exact root
  have makes : (Request.create "/c" 300).node? = some ("/c", 300, false) := rfl
  exact ⟨volume, disk, slots, run, there,
    run.make_ends (by decide) (by decide) makes (by decide) there (by decide)⟩

end SectorFS
