import SectorFS.Proofs.Volume.Enter

/-!
# Making files and directories

`create` and `makeDirectory` make the directories on the way and then one node in the lowest empty
slot of the last of them, `Catalog.Made`. When they are refused, nothing but directories on the way
was made: `tries_create`, `tries_makeDirectory`.
-/

namespace SectorFS.Catalog

open Volume

variable {c : Catalog} {n : Nat} {store : Store} {map : FreeMap} {volume : Volume}
variable {K : Nat → Prop}

/-- The directories on the way were made, then a node of its own in the last of them. -/
structure Made (c : Catalog) (n : Nat) (store : Store) (path : List String) (name : String)
    (item : Item) (ws : Writes) (c' : Catalog) (map' : FreeMap) : Prop where
  laidOut : c'.LaidOut n (store.after ws) map'
  kept : c.Kept store ws c'
  added : c.toNamespace.Made path name item c'.toNamespace
  along : ∀ w ∈ ws, c.Along path w.1

theorem Insertion.Placed.made {c₁ : Catalog} {map₁ map' : FreeMap} {path : List String}
    {ws vs : Writes} {ins : Insertion n c₁} (p : ins.Placed (store.after ws) vs map')
    (v : c.Valid n) (g : c.Grew n store c.toNamespace path ws c₁ map₁)
    (h : c₁.find? path = some ins.parent) :
    c.Made n store path ins.entry.name ins.node.item (ws ++ vs) ins.result map' where
  laidOut := by
    rw [Store.after_append]
    exact p.laidOut
  kept := g.kept.trans p.kept
  added := by
    refine ⟨c₁.toNamespace, ins.old.labels, g.grown, ?_, ?_, ?_, ?_⟩
    · exact toNamespace_eq_directory_iff.mpr ⟨_, _, h, ins.table, rfl⟩
    · exact Directory.none_mem_labels.mpr ⟨_, ins.slot_lt, ins.empty⟩
    · exact toNamespace_eq_none_of_find? (g.laidOut.valid.find?_insertion_eq_none ins h)
    · exact ins.namespace_result g.laidOut.valid h
  along w hw := by
    have v₁ := g.laidOut.valid
    rcases List.mem_append.mp hw with hw | hw
    · exact g.along w hw
    · exact g.kept.along v v₁ (p.relinks.along v₁ h ins.table w hw)

/-- Where the way leads somewhere already, nothing was written to make it. -/
theorem tableFirst_of_none {path : List String} {ws : Writes}
    (there : c.find? path = none ∨ ws = []) : ∀ t, c.find? path = some t → c.TableFirst t ws := by
  intro t way
  rcases there with lost | rfl
  · rw [lost] at way
    cases way
  · exact .nil c t

theorem Insertion.Placed.tableFirst_of_there {c₁ : Catalog} {map' : FreeMap} {path : List String}
    {ws vs : Writes} {ins : Insertion n c₁} (p : ins.Placed (store.after ws) vs map')
    (there : c.find? path = none ∨ ws = [] ∧ c₁ = c) (h : c₁.find? path = some ins.parent) :
    ∀ t, c.find? path = some t → c.TableFirst t (ws ++ vs) := by
  intro t way
  rcases there with lost | ⟨rfl, rfl⟩
  · rw [lost] at way
    cases way
  · rw [h, Option.some.injEq] at way
    rw [← way]
    exact p.tableFirst

/-- A new file is found where there was none, and holds what its data sectors held all along. -/
theorem Insertion.files_made {T : Namespace} {c₁ : Catalog} {map₁ : FreeMap} {path : List String}
    {ws vs : Writes} (g : c.Grew n store T path ws c₁ map₁) (ins : Insertion n c₁)
    (k : c₁.Kept (store.after ws) vs ins.result) (h : c₁.find? path = some ins.parent)
    (plain : ins.node.table = none) (spared : ∀ w ∈ vs, w.1 ∉ ins.node.extent.data) :
    (∀ w ∈ ws ++ vs, w.1 ∉ ins.node.extent.data) ∧
    c.files store (path ++ [ins.entry.name]) = none ∧
    ins.result.files (store.after (ws ++ vs)) =
      Function.update (c.files store) (path ++ [ins.entry.name]) (some (ins.entry.sector,
        (store.bytes ins.node.extent.data).take ins.node.extent.size)) := by
  have untouched : ∀ w ∈ ws ++ vs, w.1 ∉ ins.node.extent.data := by
    intro w hw hm
    rcases List.mem_append.mp hw with hw | hw
    · exact (ins.free _ (Extent.mem_owned_of_mem_data hm)).2 (g.kept.owned w hw)
    · exact spared w hw hm
  refine ⟨untouched, ?_, ?_⟩
  · rw [← g.files]
    exact files_eq_none_of_find? (g.laidOut.valid.find?_insertion_eq_none ins h)
  · have files := ins.files_result g.laidOut.valid k h
    rw [plain, g.files, ← Store.after_append] at files
    rw [files, Store.bytes_after untouched]

theorem tries_enter (l : c.LaidOut n store map) (known : volume.Over c n) (path : String) :
    ∃ ws c' map',
      (∃ t dir, Tries n store K (volume.enter path) (.ok t) ws
          (c.Stopped n store c.toNamespace [] (Path.components path)) ∧
        c.Grew n store c.toNamespace (Path.components path) ws c' map' ∧
        c'.find? (Path.components path) = some t ∧ c'.table? t = some dir ∧
        (dir = .new directoryCapacity ∧ c.find? (Path.components path) = none ∨
          ws = [] ∧ c' = c)) ∨
      ∃ cause k, Tries n store K (volume.enter path) (.error (.error cause)) ws
          (c.Stopped n store c.toNamespace [] (Path.components path)) ∧
        c.Grew n store c.toNamespace ((Path.components path).take k) ws c' map' ∧
        (c.find? (Path.components path) = none ∨ ws = []) := by
  obtain ⟨dir, root⟩ := l.valid.root
  obtain ⟨ws, c', map', ⟨t, dir', run, grew, way, table, -, quiet⟩ | refused⟩ :=
    tries_enterAlong (Path.components path) l known find?_nil root .root
  · exact ⟨ws, c', map', .inl ⟨t, dir', run, grew, way, table, quiet⟩⟩
  · exact ⟨ws, c', map', .inr refused⟩

/-- A place is found for a new name, in a directory that is made if it is missing. -/
theorem tries_placeFor (l : c.LaidOut n store map) (known : volume.Over c n) {path : String}
    (absolute : Path.Absolute path) :
    ∃ ws c' map',
      (∃ t extent file dir,
        Tries n store K (volume.placeFor path) (.ok (file, dir, Path.leaf path)) ws
          (c.Stopped n store c.toNamespace [] (Path.parent path)) ∧
        c.Grew n store c.toNamespace (Path.parent path) ws c' map' ∧
        c'.find? (Path.parent path) = some t ∧ c' t = some ⟨extent, some dir⟩ ∧
        file.header = extent.header ∧ (c.find? (Path.parent path) = none ∨ ws = [] ∧ c' = c)) ∨
      ∃ cause k, Tries n store K (volume.placeFor path) (.error (.error cause)) ws
          (c.Stopped n store c.toNamespace [] (Path.parent path)) ∧
        c.Grew n store c.toNamespace ((Path.parent path).take k) ws c' map' ∧
        (c.find? (Path.parent path) = none ∨ ws = []) := by
  rw [placeFor, Path.split_of_absolute absolute]
  obtain ⟨ws, c', map', ⟨t, dir, enter, grew, way, table, fresh⟩ | ⟨cause, k, enter, grew, none⟩⟩ :=
    tries_enter l known (Path.splitLast path).1
  · obtain ⟨extent, file, hnode, hf, load⟩ :=
      grew.laidOut.runs_loadDirectory (known.kept grew.kept) table
    have stop : c.Stopped n store c.toNamespace [] (Path.parent path) (ws ++ []) :=
      grew.stopped_at_end nofun
    by_cases taken : (dir.lookup? (Path.leaf path)).isSome = true
    · refine ⟨ws, c', map', .inr ⟨.alreadyExists, (Path.parent path).length, ?_, ?_, ?_⟩⟩
      · exact .andThen (.lift _) (.finish enter (.quiet (.andThen load (.guardFails taken)) stop))
      · rw [List.take_length]
        exact grew
      · exact fresh.imp And.right And.left
    · refine ⟨ws, c', map', .inl ⟨t, extent, file, dir, ?_, grew, way, hnode, hf,
        fresh.imp_left And.right⟩⟩
      exact .andThen (.lift _) (.finish enter
        (.quiet (.andThen load (.guardPasses taken (.done _))) stop))
  · exact ⟨ws, c', map', .inr ⟨cause, k, .andThen (.lift _) (.stop enter), grew, none⟩⟩

theorem runs_placeFor_relative {path : String} (relative : ¬ Path.Absolute path) :
    Runs n store (volume.placeFor path) (.error (.fault (.relativePath path))) [] := by
  rw [placeFor, Path.split_of_not_absolute relative]
  exact .stop (.lift _)

/-- In a directory that is there, a place is found for a name unless it is in use, and nothing is
made. -/
theorem runs_placeFor_of_find? (l : c.LaidOut n store map) (known : volume.Over c n) {path : String}
    (absolute : Path.Absolute path) {t : Nat} {dir : Directory}
    (way : c.find? (Path.parent path) = some t) (table : c.table? t = some dir) :
    ∃ extent file, c t = some ⟨extent, some dir⟩ ∧ file.header = extent.header ∧
      Runs n store (volume.placeFor path)
        (if some (Path.leaf path) ∈ dir.labels then .error (.error .alreadyExists)
          else .ok (file, dir, Path.leaf path)) [] := by
  obtain ⟨root, hroot⟩ := l.valid.root
  obtain ⟨extent, file, hnode, hf, load⟩ := l.runs_loadDirectory known table
  have enter : Runs n store (volume.enter (Path.splitLast path).1) (.ok t) [] :=
    runs_enterAlong_of_find? (Path.parent path) l known find?_nil hroot way table
  have used : (dir.lookup? (Path.leaf path)).isSome = true ↔ some (Path.leaf path) ∈ dir.labels :=
    (l.valid.tidy t dir table).isSome_lookup?_iff
  refine ⟨extent, file, hnode, hf, ?_⟩
  rw [placeFor, Path.split_of_absolute absolute]
  refine .andThen (.lift _) (.andThen enter (.andThen load ?_))
  by_cases taken : some (Path.leaf path) ∈ dir.labels
  · rw [if_pos taken]
    exact .guardFails (used.mpr taken)
  · rw [if_neg taken]
    exact .guardPasses (mt used.mp taken) (.done _)

/-- There is no place for a name that is in use, and looking for one makes nothing. -/
theorem runs_placeFor_of_taken (l : c.LaidOut n store map) (known : volume.Over c n) {path : String}
    (absolute : Path.Absolute path) {s : Nat}
    (taken : c.find? (Path.parent path ++ [Path.leaf path]) = some s) :
    Runs n store (volume.placeFor path) (.error (.error .alreadyExists)) [] := by
  obtain ⟨t, entry, way, child, -⟩ := find?_concat_eq_some_iff.mp taken
  obtain ⟨dir, table, lookup⟩ := Option.bind_eq_some_iff.mp child
  have used : some (Path.leaf path) ∈ dir.labels := by
    rw [← (l.valid.tidy t dir table).isSome_lookup?_iff, lookup]
    rfl
  obtain ⟨extent, file, -, -, place⟩ := runs_placeFor_of_find? l known absolute way table
  rw [if_pos used] at place
  exact place

/-- Creating a file makes it with the bytes that its data sectors hold already. -/
theorem tries_create (l : c.LaidOut n store map) (known : volume.Over c n) {path : String}
    (absolute : Path.Absolute path) (size : Nat) :
    ∃ ws c' map', (∀ t, c.find? (Path.parent path) = some t → c.TableFirst t ws) ∧
      ((∃ s extent, Tries n store K (volume.create path size) (.ok ()) ws
          (c.Stopped n store c.toNamespace [] (Path.parent path)) ∧ extent.size = size ∧
        c.Made n store (Path.parent path) (Path.leaf path) (.file size) ws c' map' ∧
        c' s = some ⟨extent, none⟩ ∧ (∀ w ∈ ws, w.1 ∉ extent.data) ∧
        c.files store (Path.parent path ++ [Path.leaf path]) = none ∧
        c'.files (store.after ws) = Function.update (c.files store)
          (Path.parent path ++ [Path.leaf path]) (some (s, (store.bytes extent.data).take size))) ∨
      ∃ e k, Tries n store K (volume.create path size) (.error e) ws
          (c.Stopped n store c.toNamespace [] (Path.parent path)) ∧
        c.Grew n store c.toNamespace ((Path.parent path).take k) ws c' map' ∧
        ((∃ cause, e = .error cause) ∨
          e = .fault .addOverflow ∧ Size.limit ≤ size + sectorSize)) := by
  obtain ⟨ws, c₁, map₁, ⟨t, extent, file, dir, place, grew, way, hnode, hf, there⟩ |
    ⟨cause, k, place, grew, there⟩⟩ := tries_placeFor l known absolute
  · have known₁ := known.kept grew.kept
    let Q (us : Writes) := c.Stopped n store c.toNamespace [] (Path.parent path) (ws ++ us)
    have stop : Q [] := grew.stopped_at_end nofun
    have refused {e : Failure}
        (h : reserveNode map₁ dir (Path.leaf path) size false = .error e)
        (he : (∃ cause, e = .error cause) ∨
          e = .fault .addOverflow ∧ Size.limit ≤ size + sectorSize) :
        ∃ e k, Tries n store K (volume.create path size) (.error e) ws
            (c.Stopped n store c.toNamespace [] (Path.parent path)) ∧
          c.Grew n store c.toNamespace ((Path.parent path).take k) ws c₁ map₁ ∧
          ((∃ cause, e = .error cause) ∨
            e = .fault .addOverflow ∧ Size.limit ≤ size + sectorSize) := by
      refine ⟨e, (Path.parent path).length, ?_, ?_, he⟩
      · exact .finish place (.quiet (runs_addFile_of_error grew.laidOut known₁ h) stop)
      · rw [List.take_length]
        exact grew
    rcases reserveNode_cases map₁ dir (Path.leaf path) size false with
      ⟨found, hfound, r⟩ | ⟨cause, hcause⟩ | ⟨hfault, large⟩
    · obtain ⟨ins, vs, add, res, placed, spared⟩ :=
        tries_addFile grew.laidOut known₁ hnode hf hfound r stop
      have hparent : c₁.find? (Path.parent path) = some ins.parent := by
        simp [res.parent, way]
      have table : ins.node.table = none := res.table
      have name : ins.entry.name = Path.leaf path := by rw [res.entry]
      have item : ins.node.item = .file size := by rw [Node.item, table, res.size]
      have made := placed.made l.valid grew hparent
      obtain ⟨untouched, new, files⟩ := ins.files_made grew placed.kept hparent table spared
      rw [name, item] at made
      rw [name] at new
      rw [name, res.size] at files
      refine ⟨ws ++ vs, ins.result, found.map, placed.tableFirst_of_there there hparent,
        .inl ⟨ins.entry.sector, ins.node.extent, .step place add, res.size, made, ?_, untouched,
          new, files⟩⟩
      rw [ins.result_self, ← table]
    · exact ⟨ws, c₁, map₁, tableFirst_of_none (there.imp_right And.left),
        .inr (refused hcause (.inl ⟨cause, rfl⟩))⟩
    · exact ⟨ws, c₁, map₁, tableFirst_of_none (there.imp_right And.left),
        .inr (refused hfault (.inr ⟨rfl, large⟩))⟩
  · exact ⟨ws, c₁, map₁, tableFirst_of_none there,
      .inr ⟨.error cause, k, .stop place, grew, .inl ⟨cause, rfl⟩⟩⟩

/-- Making a directory makes it without entries. -/
theorem tries_makeDirectory (l : c.LaidOut n store map) (known : volume.Over c n) {path : String}
    (absolute : Path.Absolute path) :
    ∃ ws c' map', (∀ t, c.find? (Path.parent path) = some t → c.TableFirst t ws) ∧
      (Tries n store K (volume.makeDirectory path) (.ok ()) ws
          (c.Stopped n store c.toNamespace [] (Path.parent path)) ∧
        c.Made n store (Path.parent path) (Path.leaf path) Namespace.emptyDirectory ws c' map' ∧
        c'.files (store.after ws) = c.files store ∨
      ∃ cause k, Tries n store K (volume.makeDirectory path) (.error (.error cause)) ws
          (c.Stopped n store c.toNamespace [] (Path.parent path)) ∧
        c.Grew n store c.toNamespace ((Path.parent path).take k) ws c' map') := by
  unfold makeDirectory
  obtain ⟨ws, c₁, map₁, ⟨t, extent, file, dir, place, grew, way, hnode, hf, there⟩ |
    ⟨cause, k, place, grew, there⟩⟩ := tries_placeFor l known absolute
  · have known₁ := known.kept grew.kept
    have stop (us : Writes) : (∀ w ∈ us, ¬ c₁.Owns w.1) →
        c.Stopped n store c.toNamespace [] (Path.parent path) (ws ++ us) := grew.stopped_at_end
    rcases reserveNode_cases map₁ dir (Path.leaf path) (directoryCapacity * slotSize) true with
      ⟨found, hfound, r⟩ | ⟨cause, hcause⟩ | ⟨-, large⟩
    · obtain ⟨ins, vs, add, res, placed⟩ :=
        tries_addDirectory grew.laidOut known₁ hnode hf hfound r stop
      have hparent : c₁.find? (Path.parent path) = some ins.parent := by
        simp [res.parent, way]
      have name : ins.entry.name = Path.leaf path := by rw [res.entry]
      have below := placed.grew grew.laidOut hparent res.table grew.grown
      have grew' := grew.trans l.valid (List.prefix_append _ _) below
      have made := placed.made l.valid grew hparent
      have item : ins.node.item = Namespace.emptyDirectory := by
        rw [Node.item, res.table]
        exact congrArg Item.directory (Directory.labels_new _)
      rw [name, item] at made
      exact ⟨ws ++ vs, ins.result, found.map, placed.tableFirst_of_there there hparent,
        .inl ⟨.step place (.finish add (.done _)), made, grew'.files⟩⟩
    · refine ⟨ws, c₁, map₁, tableFirst_of_none (there.imp_right And.left),
        .inr ⟨cause, (Path.parent path).length, ?_, ?_⟩⟩
      · exact .finish place (.stop (.quiet
          (runs_addDirectory_of_error grew.laidOut known₁ hcause) (stop [] (by simp))))
      · rw [List.take_length]
        exact grew
    · exact absurd large (by decide)
  · exact ⟨ws, c₁, map₁, tableFirst_of_none there, .inr ⟨cause, k, .stop place, grew⟩⟩

end SectorFS.Catalog
