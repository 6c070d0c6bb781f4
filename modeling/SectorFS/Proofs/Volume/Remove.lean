import SectorFS.Proofs.Volume.Lookup
import SectorFS.Volume.Request

/-!
# Removing

`remove` takes out a node that no descriptor is for, or is refused and writes nothing:
`tries_remove`, and `runs_remove` where every request goes through. The proof follows the way that
the program goes, from the entry (`tries_removeEntry`) over its directory (`tries_removeNamed`) to
the path. The fault of giving back a free sector never comes up, as every sector of a node is used.
A read can fail only before anything is written.
-/

namespace SectorFS

/-- A directory with a name in one of its slots. -/
def Item.isOccupied : Item → Bool
  | .file _ => false
  | .directory slots => slots.any Option.isSome

/-- The check that fails first when what a path names is removed. Whether this is open is given with
`isOpen`. -/
def Namespace.removal? (T : Namespace) (path : String) (isOpen : Bool) : Option Error :=
  if (Path.leaf path).isEmpty then some (.invalidArgument (.removal path))
  else match T.obstacle? [] (Path.parent path) with
    | some cause => some cause
    | none => match T (Path.target path) with
      | none => some .notFound
      | some item =>
        if isOpen then some .fileInUse
        else if item.isOccupied then some .directoryNotEmpty
        else none

/-- The check that fails first when a volume over the catalog removes what a path names. -/
def Catalog.removal? (c : Catalog) (volume : Volume) (path : String) : Option Error :=
  c.toNamespace.removal? path ((c.find? (Path.target path)).any volume.isOpen)

/-- A removal hurts no descriptor, as it takes out no node that is open. -/
theorem Volume.Over.removal {volume : Volume} {c : Catalog} {n : Nat} (known : volume.Over c n)
    (rem : Catalog.Removal c) (v : c.Valid n) (closed : volume.isOpen rem.entry.sector = false) :
    volume.Over rem.result n := by
  apply known.of_nodes
  intro s node h used
  apply rem.exists_result h
  obtain ⟨hmap, hroot, -⟩ := v.child _ _ _ rem.held?_slot
  rcases used with rfl | rfl | ⟨id, d, hd, rfl⟩
  · exact hmap.symm
  · exact hroot.symm
  · intro same
    obtain ⟨before, behind, descriptors, -⟩ := List.lookup_eq_some_iff.mp hd
    have found : volume.isOpen rem.entry.sector = true := by
      rw [isOpen, List.any_eq_true]
      refine ⟨(id, d), ?_, beq_iff_eq.mpr same⟩
      rw [descriptors]
      simp
    rw [closed] at found
    cases found

namespace Catalog

open Volume

variable {c : Catalog} {n s : Nat} {store : Store} {map : FreeMap} {volume : Volume}
variable {K : Nat → Prop} {Q : Writes → Prop}

/-- All sectors of a node can be given back. -/
theorem LaidOut.exists_releaseNode (l : c.LaidOut n store map) {node : Node} (h : c s = some node)
    (file : File) (hs : file.sector = s) (hf : file.header = node.extent.header) :
    ∃ map', releaseNode map file = .ok map' ∧ map'.sectorCount = n ∧
      ∀ t, map'.Uses t ↔ t ∉ node.extent.owned s ∧ map.Uses t := by
  have used : ∀ t ∈ node.extent.sectors, map.Uses t := fun t ht =>
    (l.uses t).mpr (owns_sector h ht)
  obtain ⟨map₁, release, count, uses⟩ := Extent.release used
  have header : map₁.Uses s := (uses s).mpr ⟨l.valid.apart s node h, (l.uses s).mpr (owns_header h)⟩
  refine ⟨map₁.mark s false, ?_, ?_, fun t => ?_⟩
  · rw [releaseNode, hf, release, hs]
    exact FreeMap.release_of_uses header
  · simp [FreeMap.sectorCount_mark, count, l.count]
  · simp [FreeMap.uses_mark_false, uses, Extent.owned, not_or, and_assoc]

/-- What is written when a node is taken out: the map, then the table. -/
theorem Removal.settles_unlink (rem : Removal c) (l : c.LaidOut n store map)
    (known : volume.Over c n) {mapExtent : Extent}
    (hmap : c freeMapSector = some ⟨mapExtent, none⟩) (quiet : ∀ s ∈ mapExtent.data, K s)
    {map' : FreeMap} {extent : Extent} (hparent : c rem.parent = some ⟨extent, some rem.old⟩)
    (file : File) (hf : file.header = extent.header) (count : map'.sectorCount = n)
    (uses : ∀ t, map'.Uses t ↔ t ∉ rem.node.extent.owned rem.entry.sector ∧ map.Uses t) :
    ∃ ws vs, Settles n store K (volume.storeMap map') (.ok ()) ws ∧
      Settles n (store.after ws) K (rem.new.store file) (.ok ()) vs ∧
      c.Rewrites rem.parent (ws ++ vs) ∧ rem.result.LaidOut n (store.after (ws ++ vs)) map' := by
  obtain ⟨ws, runsMap, targets, mapBytes⟩ :=
    l.settles_storeMap known hmap quiet count store
  obtain ⟨vs, runsTable, targets', table⟩ :=
    l.settles_storeTable hparent rem.capacity hf (store.after ws)
  have linked : c.Rewrites rem.parent (ws ++ vs) :=
    .append (.of_map hmap targets) (.of_table hparent targets')
  refine ⟨ws, vs, runsMap, runsTable, linked, rem.laidOut l linked.relinks ?_ ?_ count fun t => ?_⟩
  · intro extent' hparent'
    obtain rfl := extent_unique hparent hparent'
    rw [Store.after_append]
    exact table
  · intro extent' hmap'
    obtain rfl := extent_unique hmap hmap'
    rw [Store.after_append, ← mapBytes,
      l.bytes_after_data hparent hmap (l.valid.ne_map rem.table) targets' _]
  · simp [uses, l.uses, rem.owns_result l.valid]

/-- Taking a node out of the directory at `p`, once it is known that nothing stands against it. -/
theorem tries_takeOut (l : c.LaidOut n store map) (known : volume.Over c n) {p i : Nat}
    {extent : Extent} {dir : Directory} {entry : Entry} {node : Node}
    (hp : c p = some ⟨extent, some dir⟩) (held : dir.held i = some entry)
    (hnode : c entry.sector = some node) (bare : ∀ table ∈ node.table, ∀ j, table.held j = none)
    (file parentFile : File) (hs : file.sector = entry.sector)
    (hf : file.header = node.extent.header) (hf' : parentFile.header = extent.header)
    (start : Q []) :
    ∃ (rem : Removal c) (ws : Writes) (map' : FreeMap),
      Tries n store K (do
        let map ← releaseNode (← volume.loadMap) file
        let directory ← dir.remove entry.name
        volume.storeMap map
        directory.store parentFile) (.ok ()) ws Q ∧
      rem.result.LaidOut n (store.after ws) map' ∧ c.Rewrites rem.parent ws ∧
      rem.parent = p ∧ rem.entry = entry := by
  have table : c.table? p = some dir := table?_eq_some_iff.mpr ⟨extent, hp⟩
  obtain ⟨dir', remove, capacity, tidy, held'⟩ := (l.valid.tidy p dir table).remove_ok held rfl
  obtain ⟨map', release, count, uses⟩ := l.exists_releaseNode hnode file hs hf
  let rem : Removal c :=
    { parent := p
      old := dir
      new := dir'
      slot := i
      entry, node, table
      there := held
      tidy, capacity
      held := held'
      node_at := hnode
      bare }
  obtain ⟨mapExtent, hmap, -⟩ := l.valid.map
  obtain ⟨ws, vs, runsMap, runsTable, linked, l'⟩ := rem.settles_unlink
    (K := fun s => K s ∨ s ∈ mapExtent.data) l known hmap (fun s hs => .inr hs)
    hp parentFile hf' count uses
  refine ⟨rem, ws ++ vs, map', ?_, l', linked, rfl, rfl⟩
  refine .scan start (l.scans_loadMap known hmap) (.of_settles ?_)
  rw [release, remove]
  exact .andThen (.lift _) (.andThen (.liftError _) (.step runsMap runsTable))

/-- The rest of a removal, unless the entry is for a directory with entries of its own. -/
def unlessFull (entry : Entry) (file : File) (rest : DiskM Unit) : DiskM Unit := do
  if entry.isDirectory then
    if !(← Directory.load file).isEmpty then throw (.error .directoryNotEmpty)
  rest

/-- A node is occupied when one of its slots is. -/
theorem isOccupied_item {node : Node} :
    node.item.isOccupied = false ↔ ∀ table ∈ node.table, ∀ j, table.held j = none := by
  obtain ⟨extent, _ | table⟩ := node
  · simp [Node.item, Item.isOccupied]
  · change table.labels.any Option.isSome = false ↔ ∀ other ∈ some table, ∀ j, other.held j = none
    simp only [List.any_eq_false, Option.mem_def, Option.some.injEq, forall_eq']
    constructor
    · intro bare j
      rw [Option.eq_none_iff_forall_not_mem]
      intro e held
      exact bare _ (Directory.some_mem_labels.mpr ⟨j, e, held, rfl⟩) rfl
    · rintro bare (_ | name) hm
      · simp
      · obtain ⟨j, e, held, -⟩ := Directory.some_mem_labels.mp hm
        rw [bare j] at held
        cases held

/-- Either the node has no entries, and the removal goes on, or it is refused. -/
theorem LaidOut.unlessFull_cases (l : c.LaidOut n store map) {entry : Entry} {node : Node}
    (hnode : c entry.sector = some node) (kind : node.table.isSome = entry.isDirectory)
    (file : File) (hf : file.header = node.extent.header) (start : Q []) :
    (node.item.isOccupied = false ∧
      ∀ rest ws, Tries n store K rest (.ok ()) ws Q →
        Tries n store K (unlessFull entry file rest) (.ok ()) ws Q) ∨
    (node.item.isOccupied = true ∧
      ∀ rest,
        Runs n store (unlessFull entry file rest) (.error (.error .directoryNotEmpty)) []) := by
  obtain ⟨extent, table⟩ := node
  unfold unlessFull
  cases table with
  | none =>
    refine .inl ⟨rfl, fun rest ws run => ?_⟩
    simp only [← kind, Option.isSome_none, Bool.false_eq_true, if_false]
    exact run
  | some below =>
    have load := l.runs_table hnode file hf
    have bare : Item.isOccupied (Node.item ⟨extent, some below⟩) = false ↔
        below.isEmpty = true := by
      rw [isOccupied_item, Directory.isEmpty_iff]
      simp
    simp only [← kind, Option.isSome_some, if_true]
    cases empty : below.isEmpty with
    | true =>
      refine .inl ⟨bare.mpr empty, fun rest ws run => .andThen (.quiet load start) ?_⟩
      exact .guardPasses (by simp [empty]) run
    | false =>
      refine .inr ⟨by simpa [empty] using bare, fun rest => .andThen load ?_⟩
      exact .guardFails (by simp [empty])

/-- What `remove` does with the entry that it finds. -/
def removeEntry (volume : Volume) (dir : Directory) (parentFile : File) (entry : Entry)
    (name : String) : DiskM Unit := do
  if volume.isOpen entry.sector then throw (.error .fileInUse)
  let file ← File.load entry.sector
  unlessFull entry file do
    let map ← releaseNode (← volume.loadMap) file
    let directory ← dir.remove name
    volume.storeMap map
    directory.store parentFile

/-- What `remove` does in the directory that it finds. -/
def removeNamed (volume : Volume) (dir : Directory) (parentFile : File) (name : String) :
    DiskM Unit :=
  match dir.lookup? name with
  | none => throw (.error .notFound)
  | some entry => removeEntry volume dir parentFile entry name

theorem remove_eq (volume : Volume) (path : String) :
    volume.remove path = (do
      let (parent, name) ← Path.split path
      if name.isEmpty then throw (.error (.invalidArgument (.removal path)))
      let (parentFile, dir) ← volume.loadDirectory (← volume.find parent)
      removeNamed volume dir parentFile name) := by
  rfl

/-- An entry is taken out with its node, unless the node is open or occupied. -/
theorem tries_removeEntry (l : c.LaidOut n store map) (known : volume.Over c n) {p i : Nat}
    {extent : Extent} {dir : Directory} {entry : Entry} {node : Node}
    (hp : c p = some ⟨extent, some dir⟩) (held : dir.held i = some entry)
    (hnode : c entry.sector = some node) (kind : node.table.isSome = entry.isDirectory)
    {parentFile : File} (hf : parentFile.header = extent.header) (start : Q []) :
    (volume.isOpen entry.sector = false ∧ node.item.isOccupied = false ∧
      ∃ (rem : Removal c) (ws : Writes) (map' : FreeMap),
        Tries n store K (removeEntry volume dir parentFile entry entry.name) (.ok ()) ws Q ∧
        rem.result.LaidOut n (store.after ws) map' ∧ c.Rewrites rem.parent ws ∧
        rem.parent = p ∧ rem.entry = entry) ∨
    (volume.isOpen entry.sector = true ∧
      Runs n store (removeEntry volume dir parentFile entry entry.name)
        (.error (.error .fileInUse)) []) ∨
    (volume.isOpen entry.sector = false ∧ node.item.isOccupied = true ∧
      Runs n store (removeEntry volume dir parentFile entry entry.name)
        (.error (.error .directoryNotEmpty)) []) := by
  unfold removeEntry
  cases closed : volume.isOpen entry.sector with
  | true => exact .inr (.inl ⟨rfl, .guardFails rfl⟩)
  | false =>
    have load := l.runs_file hnode
    let file : File := ⟨entry.sector, node.extent.header, 0⟩
    rcases l.unlessFull_cases hnode kind file rfl start with ⟨bare, goes_on⟩ | ⟨occupied, refused⟩
    · obtain ⟨rem, ws, map', run, l', linked, parent, same⟩ :=
        tries_takeOut l known hp held hnode (isOccupied_item.mp bare) file parentFile rfl rfl hf
          start
      refine .inl ⟨rfl, bare, rem, ws, map', ?_, l', linked, parent, same⟩
      exact .guardPasses Bool.false_ne_true (.andThen (.quiet load start) (goes_on _ ws run))
    · refine .inr (.inr ⟨rfl, occupied, ?_⟩)
      exact .guardPasses Bool.false_ne_true (.andThen load (refused _))

/-- In the directory above it, what a path names is taken out, or the removal is refused by the
first check that fails. -/
theorem tries_removeNamed (l : c.LaidOut n store map) (known : volume.Over c n) {path : String}
    (named : ¬ (Path.leaf path).isEmpty = true)
    (clear : c.toNamespace.obstacle? [] (Path.parent path) = none) {p : Nat}
    (way : c.find? (Path.parent path) = some p) {extent : Extent} {dir : Directory}
    (hp : c p = some ⟨extent, some dir⟩) {parentFile : File}
    (hf : parentFile.header = extent.header) (start : Q []) :
    (c.removal? volume path = none ∧ ∃ (rem : Removal c) (ws : Writes) (map' : FreeMap),
      Tries n store K (removeNamed volume dir parentFile (Path.leaf path)) (.ok ()) ws Q ∧
      rem.result.LaidOut n (store.after ws) map' ∧ c.Rewrites rem.parent ws ∧
      c.find? (Path.parent path) = some rem.parent ∧ rem.entry.name = Path.leaf path ∧
      volume.isOpen rem.entry.sector = false) ∨
    ∃ cause, c.removal? volume path = some cause ∧
      Runs n store (removeNamed volume dir parentFile (Path.leaf path))
        (.error (.error cause)) [] := by
  have table : c.table? p = some dir := table?_eq_some_iff.mpr ⟨extent, hp⟩
  have child : c.child? p (Path.leaf path) = dir.lookup? (Path.leaf path) := by
    simp [child?, table]
  unfold removeNamed
  rw [removal?, Namespace.removal?, if_neg named]
  simp only [clear]
  cases hlookup : dir.lookup? (Path.leaf path) with
  | none =>
    have lost : c.find? (Path.target path) = none :=
      find?_concat_eq_none way (child.trans hlookup)
    rw [toNamespace_eq_none_of_find? lost]
    exact .inr ⟨.notFound, rfl, .refuse _⟩
  | some entry =>
    have found := child.trans hlookup
    have there : c.find? (Path.target path) = some entry.sector :=
      find?_concat_eq_some_iff.mpr ⟨p, entry, way, found, rfl⟩
    obtain ⟨i, held, name⟩ := (l.valid.tidy p dir table).lookup?_eq_some_iff.mp hlookup
    obtain ⟨-, -, node, hnode, kind⟩ := l.valid.exists_node_of_child? found
    rw [toNamespace_of_find? there hnode, there, Option.any_some, ← name]
    rcases tries_removeEntry l known hp held hnode kind hf start with
      ⟨closed, bare, rem, ws, map', run, l', linked, rfl, rfl⟩ | ⟨used, refused⟩ |
      ⟨closed, occupied, refused⟩
    · exact .inl ⟨by simp [closed, bare], rem, ws, map', run, l', linked, way, rfl, closed⟩
    · exact .inr ⟨.fileInUse, by simp [used], refused⟩
    · exact .inr ⟨.directoryNotEmpty, by simp [closed, occupied], refused⟩

/-- Removing takes out the node at the path, which no descriptor is for, or is refused by the first
check that fails. -/
theorem tries_remove (l : c.LaidOut n store map) (known : volume.Over c n) {path : String}
    (absolute : Path.Absolute path) (start : Q []) :
    (c.removal? volume path = none ∧ ∃ (rem : Removal c) (ws : Writes) (map' : FreeMap),
      Tries n store K (volume.remove path) (.ok ()) ws Q ∧
      rem.result.LaidOut n (store.after ws) map' ∧ c.Rewrites rem.parent ws ∧
      c.find? (Path.parent path) = some rem.parent ∧ rem.entry.name = Path.leaf path ∧
      volume.isOpen rem.entry.sector = false) ∨
    ∃ cause, c.removal? volume path = some cause ∧
      Runs n store (volume.remove path) (.error (.error cause)) [] := by
  have split : Path.split path = .ok ((Path.splitLast path).1, Path.leaf path) :=
    Path.split_of_absolute absolute
  rw [remove_eq, split]
  by_cases unnamed : (Path.leaf path).isEmpty = true
  · rw [removal?, Namespace.removal?, if_pos unnamed]
    exact .inr ⟨_, rfl, .andThen (.lift _) (.guardFails unnamed)⟩
  · rcases runs_find l known (Path.splitLast path).1 with ⟨clear, p, dir, way, table, find⟩ |
      ⟨cause, obstacle, find⟩
    · obtain ⟨extent, parentFile, hp, hf, load⟩ := l.runs_loadDirectory known table
      rcases tries_removeNamed l known unnamed clear way hp hf start with
        ⟨passes, rem, ws, map', run, removed⟩ | ⟨cause, refused, run⟩
      · refine .inl ⟨passes, rem, ws, map', ?_, removed⟩
        exact .andThen (.lift _) (.guardPasses unnamed
          (.andThen (.quiet find start) (.andThen (.quiet load start) run)))
      · refine .inr ⟨cause, refused, ?_⟩
        exact .andThen (.lift _) (.guardPasses unnamed (.andThen find (.andThen load run)))
    · have obstacle : c.toNamespace.obstacle? [] (Path.parent path) = some cause := obstacle
      rw [removal?, Namespace.removal?, if_neg unnamed]
      simp only [obstacle]
      exact .inr ⟨cause, rfl, .andThen (.lift _) (.guardPasses unnamed (.stop find))⟩

/-- What a path names is removed unless one of the checks fails, and then nothing is written. -/
theorem runs_remove (l : c.LaidOut n store map) (known : volume.Over c n) {path : String}
    (absolute : Path.Absolute path) :
    (c.removal? volume path = none ∧ ∃ (rem : Removal c) (ws : Writes) (map' : FreeMap),
      Runs n store (volume.perform (.remove path)) (.ok (.done, volume)) ws ∧
      rem.result.LaidOut n (store.after ws) map' ∧ c.Rewrites rem.parent ws ∧
      c.find? (Path.parent path) = some rem.parent ∧ rem.entry.name = Path.leaf path ∧
      volume.isOpen rem.entry.sector = false) ∨
    ∃ cause, c.removal? volume path = some cause ∧
      Runs n store (volume.perform (.remove path)) (.error (.error cause)) [] := by
  rcases tries_remove (K := fun _ => True) (Q := fun _ => True) l known absolute trivial with
    ⟨passes, rem, ws, map', remove, removed⟩ | ⟨cause, refused, run⟩
  · exact .inl ⟨passes, rem, ws, map', .finish remove.runs (.done _), removed⟩
  · exact .inr ⟨cause, refused, .stop run⟩

theorem runs_remove_relative {path : String} (relative : ¬ Path.Absolute path) :
    Runs n store (volume.remove path) (.error (.fault (.relativePath path))) [] := by
  rw [remove, Path.split_of_not_absolute relative]
  exact .stop (.lift _)

end Catalog

end SectorFS
