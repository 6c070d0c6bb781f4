import SectorFS.Proofs.Volume.Enter
import SectorFS.Proofs.Volume.Listing
import SectorFS.Volume.Lookup
import SectorFS.Volume.Report

/-!
# Looking at a volume

Operations that write nothing. `findAlong` finds a directory unless something stands in the way
(`runs_findAlong`), `list` names its entries, and the listing of everything below it comes to an
end, because no way down is longer than the disk has sectors (`runs_listings`).
-/

namespace SectorFS

namespace Directory

/-- The lines of an entry `depth` levels down and of what is below it. -/
def part (levels depth : Nat) (entry : Entry) : DiskM String := do
  let line ← entry.line depth
  if entry.isDirectory then
    let below ← load (← File.load entry.sector)
    return line ++ (← treeWithin levels (depth + 1) below)
  else return line

/-- The lines of some entries of a directory, one after another. -/
def parts (levels depth : Nat) (entries : List Entry) : DiskM String := do
  let parts ← entries.mapM (part levels depth)
  return String.join parts

theorem treeWithin_succ (levels depth : Nat) (dir : Directory) :
    dir.treeWithin (levels + 1) depth = parts levels depth dir.entries := by
  unfold treeWithin
  rfl

theorem parts_cons (levels depth : Nat) (entry : Entry) (entries : List Entry) :
    parts levels depth (entry :: entries) = do
      let part ← part levels depth entry
      let text ← parts levels depth entries
      return part ++ text := by
  simp [parts, List.mapM_cons, String.join_cons]

end Directory

namespace Catalog

open Volume

variable {c : Catalog} {n s : Nat} {store : Store} {map : FreeMap} {volume : Volume}
variable {start : Directory} {path : List String}

/-- Finding ends at the directory that the way leads to, or with what stands in the way. -/
theorem runs_findAlong (names : List String) (l : c.LaidOut n store map) (known : volume.Over c n)
    (hs : c.find? path = some s) (hstart : c.table? s = some start) :
    (c.toNamespace.obstacle? path names = none ∧ ∃ t dir, c.find? (path ++ names) = some t ∧
      c.table? t = some dir ∧ Runs n store (volume.findAlong s names) (.ok t) []) ∨
    ∃ cause, c.toNamespace.obstacle? path names = some cause ∧
      Runs n store (volume.findAlong s names) (.error (.error cause)) [] := by
  induction names generalizing path s start with
  | nil =>
    rw [List.append_nil]
    exact .inl ⟨rfl, s, start, hs, hstart, .done s⟩
  | cons name rest ih =>
    obtain ⟨extent, file, -, -, load⟩ := l.runs_loadDirectory known hstart
    have split : path ++ name :: rest = path ++ [name] ++ rest := by simp
    rw [findAlong, split]
    rcases l.valid.step_cases name hs hstart with ⟨entry, below, hlookup, hdir, way, table⟩ |
      ⟨entry, hlookup, hdir, way, plain⟩ | ⟨hlookup, lost⟩
    · have there := toNamespace_eq_directory_iff.mpr ⟨_, _, way, table, rfl⟩
      rw [Namespace.obstacle?_of_directory there]
      rcases ih way table with ⟨clear, t, dir, found, table', run⟩ | ⟨cause, obstacle, run⟩
      · refine .inl ⟨clear, t, dir, found, table', .andThen load ?_⟩
        simp only [hlookup, hdir, if_true]
        exact run
      · refine .inr ⟨cause, obstacle, .andThen load ?_⟩
        simp only [hlookup, hdir, if_true]
        exact run
    · obtain ⟨size, there⟩ := l.valid.toNamespace_of_file way plain
      refine .inr ⟨.notADirectory, Namespace.obstacle?_of_file there rest, .andThen load ?_⟩
      simp only [hlookup, hdir, Bool.false_eq_true, if_false]
      exact .refuse _
    · refine .inr ⟨.notFound, Namespace.obstacle?_of_none (toNamespace_eq_none_of_find? lost) rest,
        .andThen load ?_⟩
      simp only [hlookup]
      exact .refuse _

theorem runs_find (l : c.LaidOut n store map) (known : volume.Over c n) (text : String) :
    (c.toNamespace.obstacle? [] (Path.components text) = none ∧
      ∃ t dir, c.find? (Path.components text) = some t ∧ c.table? t = some dir ∧
        Runs n store (volume.find text) (.ok t) []) ∨
    ∃ cause, c.toNamespace.obstacle? [] (Path.components text) = some cause ∧
      Runs n store (volume.find text) (.error (.error cause)) [] := by
  obtain ⟨dir, root⟩ := l.valid.root
  exact runs_findAlong (Path.components text) l known find?_nil root

theorem runs_directoryAt (l : c.LaidOut n store map) (known : volume.Over c n) {text : String}
    (absolute : Path.Absolute text) :
    (∃ t dir, c.find? (Path.components text) = some t ∧ c.table? t = some dir ∧
      Runs n store (volume.directoryAt text) (.ok dir) []) ∨
    ((∀ slots, c.toNamespace (Path.components text) ≠ some (.directory slots)) ∧
      ∃ cause, Runs n store (volume.directoryAt text) (.error (.error cause)) []) := by
  rw [directoryAt, Path.requireAbsolute_of_absolute absolute]
  rcases runs_find l known text with ⟨-, t, dir, found, table, find⟩ | ⟨cause, obstacle, find⟩
  · obtain ⟨extent, file, -, -, load⟩ := l.runs_loadDirectory known table
    exact .inl ⟨t, dir, found, table,
      .andThen (.lift _) (.andThen find (.andThen load (.done _)))⟩
  · refine .inr ⟨fun slots there => ?_, cause, .andThen (.lift _) (.stop find)⟩
    have clear : c.toNamespace.obstacle? [] (Path.components text) = none :=
      l.valid.tree.obstacle?_eq_none there
    rw [obstacle] at clear
    cases clear

theorem runs_directoryAt_relative {text : String} (relative : ¬ Path.Absolute text) :
    Runs n store (volume.directoryAt text) (.error (.fault (.relativePath text))) [] := by
  rw [directoryAt, Path.requireAbsolute_of_not_absolute relative]
  exact .stop (.lift _)

/-! ## The listing of everything below -/

/-- An entry has the line of the node it leads to, as far down as a disk can reach. -/
theorem line_eq_listing {T : Namespace} {base : List String} {entry : Entry} {depth : Nat}
    (h : depth < diskLimit) (deep : path.length = base.length + depth)
    (kind : entry.isDirectory = true ↔
      ∃ slots, T (path ++ [entry.name]) = some (.directory slots)) :
    entry.line depth = T.listing base [path ++ [entry.name]] := by
  have small : depth * 4 < Size.limit := by
    simp only [diskLimit, Size.limit] at *
    omega
  have indent : Namespace.indent base (path ++ [entry.name]) = depth * 4 := by
    simp only [Namespace.indent, List.length_append, List.length_singleton]
    omega
  rw [Entry.line, Size.mul_of_lt small, Namespace.listing_singleton, Namespace.line_concat kind,
    indent]
  by_cases wide : widestPadding < depth * 4
  · rw [if_neg (show ¬ depth * 4 ≤ widestPadding by omega)]
    change (if widestPadding < depth * 4 then _ else _) = _
    rw [if_pos wide]
    rfl
  · rw [if_pos (show depth * 4 ≤ widestPadding by omega)]
    change (if widestPadding < depth * 4 then _ else _) = _
    rw [if_neg wide]
    rfl

/-- An entry in a table leads to a node, and says whether it is a directory. -/
theorem LaidOut.exists_node_of_entry (l : c.LaidOut n store map) (hs : c.find? path = some s)
    (hstart : c.table? s = some start) {entry : Entry} (mem : entry ∈ start.entries) :
    c.find? (path ++ [entry.name]) = some entry.sector ∧
      ∃ node, c entry.sector = some node ∧ node.table.isSome = entry.isDirectory := by
  obtain ⟨i, held⟩ := Directory.mem_entries.mp mem
  have child := l.valid.tidy.child?_eq_some_iff.mpr
    ⟨i, held?_eq_some_iff.mpr ⟨start, hstart, held⟩, rfl⟩
  obtain ⟨-, -, node, hnode, kind⟩ := l.valid.exists_node_of_child? child
  exact ⟨find?_concat_eq_some_iff.mpr ⟨s, entry, hs, child, rfl⟩, node, hnode, kind⟩

section Part

variable (l : c.LaidOut n store map) (hs : c.find? path = some s) (hstart : c.table? s = some start)
variable {entry : Entry} (mem : entry ∈ start.entries)
variable {base : List String} {depth : Nat} (deep : path.length = base.length + depth)
include l hs hstart mem deep

theorem line_of_entry : entry.line depth = c.toNamespace.listing base [path ++ [entry.name]] := by
  have short := l.valid.length_lt_of_find? hs
  have small := l.small
  obtain ⟨way, ⟨extent, table⟩, hnode, kind⟩ := l.exists_node_of_entry hs hstart mem
  apply line_eq_listing (by omega) deep
  rw [← kind, toNamespace_of_find? way hnode]
  cases table with
  | none => simp [Node.item]
  | some dir => simp [Node.item]

theorem runs_part_of_file {size : Nat} (levels : Nat)
    (there : c.toNamespace (path ++ [entry.name]) = some (.file size)) :
    Runs n store (Directory.part levels depth entry)
      (c.toNamespace.listing base [path ++ [entry.name]]) [] := by
  obtain ⟨way, ⟨extent, table⟩, hnode, kind⟩ := l.exists_node_of_entry hs hstart mem
  rw [toNamespace_of_find? way hnode] at there
  cases table with
  | some dir => cases there
  | none =>
    have plain : entry.isDirectory = false := kind.symm
    simp only [Directory.part, plain, Bool.false_eq_true, if_false, bind_pure,
      line_of_entry l hs hstart mem deep]
    exact .lift _

/-- The line of a directory, and behind it the lines inside. -/
theorem runs_part_of_directory {levels : Nat} {slots : List (Option String)}
    {inside : List (List String)}
    (there : c.toNamespace (path ++ [entry.name]) = some (.directory slots))
    (inner : ∀ t dir, c.find? (path ++ [entry.name]) = some t → c.table? t = some dir →
      dir.labels = slots → Runs n store (dir.treeWithin levels (depth + 1))
        (c.toNamespace.listing base inside) []) :
    Runs n store (Directory.part levels depth entry)
      (c.toNamespace.listing base ((path ++ [entry.name]) :: inside)) [] := by
  obtain ⟨way, ⟨extent, table⟩, hnode, kind⟩ := l.exists_node_of_entry hs hstart mem
  rw [toNamespace_of_find? way hnode] at there
  cases table with
  | none => cases there
  | some dir =>
    have labels : dir.labels = slots := Item.directory.inj (Option.some.inj there)
    have below : entry.isDirectory = true := kind.symm
    have run := inner _ dir way (table?_eq_some_iff.mpr ⟨extent, hnode⟩) labels
    have load := l.runs_table hnode ⟨entry.sector, extent.header, 0⟩ rfl
    rw [← List.singleton_append, Namespace.listing_append]
    simp only [Directory.part, below, if_true, line_of_entry l hs hstart mem deep]
    exact .bind (.lift _) fun line => .andThen (l.runs_file hnode)
      (.andThen load (.bind run fun text => .done _))

end Part

/-- The listing below `path`, taken entry by entry. The levels left and those behind are together
more than the disk has sectors, so it never runs out of levels. -/
theorem runs_parts (l : c.LaidOut n store map) {base names : List String}
    {ways : List (List String)} (order : c.toNamespace.Below path names ways)
    {levels depth : Nat} {entries : List Entry} (hs : c.find? path = some s)
    (hstart : c.table? s = some start) (known : ∀ entry ∈ entries, entry ∈ start.entries)
    (named : entries.map Entry.name = names) (enough : n < path.length + (levels + 1))
    (deep : path.length = base.length + depth) :
    Runs n store (Directory.parts levels depth entries) (c.toNamespace.listing base ways) [] := by
  induction order generalizing s start entries levels depth with
  | done =>
    rw [List.map_eq_nil_iff] at named
    subst named
    exact .done _
  | @file path name names size ways there _ ih =>
    obtain ⟨entry, entries, rfl, rfl, behind⟩ := List.map_eq_cons_iff.mp named
    obtain ⟨first, others⟩ := List.forall_mem_cons.mp known
    rw [Directory.parts_cons, ← List.singleton_append, Namespace.listing_append]
    exact .bind (runs_part_of_file l hs hstart first deep levels there) fun line =>
      .bind (ih hs hstart others behind enough deep) fun text => .done _
  | @directory path name names slots inside ways there _ _ ih_inside ih =>
    obtain ⟨entry, entries, rfl, rfl, behind⟩ := List.map_eq_cons_iff.mp named
    obtain ⟨first, others⟩ := List.forall_mem_cons.mp known
    have length : (path ++ [entry.name]).length = path.length + 1 := by simp
    have part : Runs n store (Directory.part levels depth entry)
        (c.toNamespace.listing base ((path ++ [entry.name]) :: inside)) [] := by
      apply runs_part_of_directory l hs hstart first deep there
      intro t dir way table labels
      have short := l.valid.length_lt_of_find? way
      obtain ⟨levels, rfl⟩ : ∃ rest, levels = rest + 1 := ⟨levels - 1, by omega⟩
      rw [Directory.treeWithin_succ]
      apply ih_inside way table (fun _ mem => mem)
      · rw [← labels]
        exact dir.names_eq
      · omega
      · omega
    rw [Directory.parts_cons, ← List.cons_append, Namespace.listing_append]
    exact .bind part fun line =>
      .bind (ih hs hstart others behind enough deep) fun text => .done _

/-- Everything below a directory is listed, or a line of it stands too far in. -/
theorem runs_treeWithin (l : c.LaidOut n store map) {levels : Nat} {ways : List (List String)}
    (hs : c.find? path = some s) (hstart : c.table? s = some start)
    (order : c.toNamespace.Below path (start.labels.filterMap id) ways) (enough : n < levels) :
    Runs n store (start.treeWithin levels 0) (c.toNamespace.listing path ways) [] := by
  obtain ⟨levels, rfl⟩ : ∃ rest, levels = rest + 1 := ⟨levels - 1, by omega⟩
  rw [Directory.treeWithin_succ]
  exact runs_parts l order hs hstart (fun _ mem => mem) start.names_eq (by omega) rfl

/-- Both listings succeed on a directory alone, and otherwise are refused alike. No level more makes
the longer one another. -/
theorem runs_listings (l : c.LaidOut n store map) (known : volume.Over c n) {text : String}
    (absolute : Path.Absolute text) :
    (∃ slots ways, c.toNamespace (Path.components text) = some (.directory slots) ∧
      c.toNamespace.Below (Path.components text) (slots.filterMap id) ways ∧
      Runs n store (volume.list text) (.ok (slots.filterMap id)) [] ∧
      Runs n store (volume.tree text) (c.toNamespace.listing (Path.components text) ways) [] ∧
      ∀ levels, n < levels → Runs n store (do (← volume.directoryAt text).treeWithin levels 0)
        (c.toNamespace.listing (Path.components text) ways) []) ∨
    ((∀ slots, c.toNamespace (Path.components text) ≠ some (.directory slots)) ∧
      ∃ cause, Runs n store (volume.list text) (.error (.error cause)) [] ∧
        Runs n store (volume.tree text) (.error (.error cause)) []) := by
  unfold list tree
  rcases runs_directoryAt l known absolute with ⟨t, dir, found, table, run⟩ | ⟨missing, cause, run⟩
  · have there := toNamespace_eq_directory_iff.mpr ⟨t, dir, found, table, rfl⟩
    obtain ⟨ways, order⟩ := l.valid.tree.exists_below there
    have inner {levels : Nat} (enough : n < levels) := runs_treeWithin l found table order enough
    have same (disk : Disk) (covers : disk.Covers n) :
        dir.tree 0 disk = dir.treeWithin (n + 1) 0 disk := by
      simp [Directory.tree, covers.sectorCount_eq]
    refine .inl ⟨dir.labels, ways, there, order, ?_, ?_, ?_⟩
    · rw [← Directory.names_eq]
      exact .andThen run (.done _)
    · exact .andThen run ((inner (Nat.lt_succ_self n)).congr same)
    · intro levels enough
      exact .andThen run (inner enough)
  · exact .inr ⟨missing, cause, .stop run, .stop run⟩

/-! ## Reports -/

theorem runs_freeCount (l : c.LaidOut n store map) (known : volume.Over c n) :
    Runs n store volume.freeCount (.ok map.freeCount) [] :=
  .andThen (l.runs_loadMap known) (.done _)

theorem runs_contentLines (store : Store) {sectors : List Nat} (h : ∀ s ∈ sectors, s < n)
    (remaining : Nat) :
    ∃ lines, Runs n store (Header.contentLines sectors remaining) (.ok lines) [] := by
  induction sectors generalizing remaining with
  | nil => exact ⟨[], .done _⟩
  | cons s sectors ih =>
    obtain ⟨lines, run⟩ := ih (fun t ht => h t (List.mem_cons_of_mem _ ht))
      (remaining - min remaining sectorSize)
    exact ⟨_, .andThen (.read (h s List.mem_cons_self)) (.andThen run (.done _))⟩

theorem LaidOut.runs_contents (l : c.LaidOut n store map) {node : Node} (h : c s = some node)
    (file : File) (hf : file.header = node.extent.header) :
    ∃ text, Runs n store file.header.contents (.ok text) [] := by
  rw [hf]
  have inside : ∀ s ∈ node.extent.header.dataSectors, s < n := by
    have same : node.extent.header.dataSectors = node.extent.data := node.extent.dataSectors_chain
    rw [same]
    exact fun s hs => l.lt_of_mem h (node.extent.mem_sectors.mpr (.inr hs))
  obtain ⟨lines, run⟩ := runs_contentLines store inside node.extent.header.length
  exact ⟨_, .andThen run (.done _)⟩

theorem runs_dump (l : c.LaidOut n store map) (known : volume.Over c n) :
    ∃ text, Runs n store volume.dump (.ok text) [] := by
  obtain ⟨mapExtent, hmap, hmapFile⟩ := known.mapFile
  obtain ⟨rootExtent, root, hroot, hrootFile⟩ := known.rootFile
  obtain ⟨mapText, runMap⟩ := l.runs_contents hmap volume.mapFile (by rw [hmapFile])
  obtain ⟨rootText, runRoot⟩ := l.runs_contents hroot volume.rootFile (by rw [hrootFile])
  have table := l.runs_table hroot volume.rootFile (by rw [hrootFile])
  exact ⟨_, .andThen (l.runs_loadMap known)
    (.andThen table (.andThen runMap (.andThen runRoot (.done _))))⟩

end Catalog

end SectorFS
