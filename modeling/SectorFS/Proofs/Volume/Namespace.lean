import SectorFS.Proofs.Volume.Removal

/-!
# Namespaces

A `Namespace` says what each path leads to, and nothing of where it lies on the disk. The namespace
of a valid catalog is a tree (`Catalog.Valid.tree`), an insertion adds one item to it
(`Insertion.namespace_result`), and a removal takes one away (`Removal.namespace_result`).
-/

namespace SectorFS

/-- A file of some size, or a directory with the names in its slots. -/
inductive Item where
  | file (size : Nat)
  | directory (slots : List (Option String))
  deriving DecidableEq

/-- What the names from the root on lead to. -/
abbrev Namespace := List String → Option Item

namespace Namespace

def emptyDirectory : Item := .directory (List.replicate directoryCapacity none)

/-- An empty root and nothing else. -/
def bare : Namespace := fun path => if path = [] then some emptyDirectory else none

/-- Puts an item under `name` into the lowest empty slot of the directory at `path`. -/
def add (T : Namespace) (path : List String) (name : String) (item : Item) : Namespace :=
  match T path with
  | some (.directory slots) =>
    let full := Function.update T path
      (some (.directory (slots.set (slots.idxOf none) (some name))))
    Function.update full (path ++ [name]) (some item)
  | _ => T

/-- Empties the slot of `name` in the directory at `path`. -/
def remove (T : Namespace) (path : List String) (name : String) : Namespace :=
  match T path with
  | some (.directory slots) =>
    let bare := Function.update T path
      (some (.directory (slots.set (slots.idxOf (some name)) none)))
    Function.update bare (path ++ [name]) none
  | _ => T

/-- `T'` is `T` with the directories along `path` that were missing. Each is made empty, and then
takes the next one. -/
inductive Grown (T : Namespace) : (path : List String) → (T' : Namespace) → Prop where
  | root : Grown T [] T
  | there {path name T' slots} : Grown T path T' →
      T' (path ++ [name]) = some (.directory slots) → Grown T (path ++ [name]) T'
  | made {path name T' slots} : Grown T path T' → T' path = some (.directory slots) →
      none ∈ slots → T' (path ++ [name]) = none →
      Grown T (path ++ [name]) (T'.add path name emptyDirectory)

/-- `T'` is `T` with the directories along `path`, and then with one item more in the last of them,
under a name that was not in use there. -/
def Made (T : Namespace) (path : List String) (name : String) (item : Item) (T' : Namespace) :
    Prop :=
  ∃ T₁ slots, T.Grown path T₁ ∧ T₁ path = some (.directory slots) ∧ none ∈ slots ∧
    T₁ (path ++ [name]) = none ∧ T' = T₁.add path name item

/-- A tree of directories with distinct valid names, less than `n` levels deep. -/
structure Tree (T : Namespace) (n : Nat) : Prop where
  root : ∃ slots, T [] = some (.directory slots)
  capacity : ∀ path slots, T path = some (.directory slots) → slots.length = directoryCapacity
  valid : ∀ path slots name, T path = some (.directory slots) → some name ∈ slots → ValidName name
  distinct : ∀ path slots (i j : Nat) name, T path = some (.directory slots) →
    slots[i]? = some (some name) → slots[j]? = some (some name) → i = j
  child : ∀ path name, (∃ item, T (path ++ [name]) = some item) ↔
    ∃ slots, T path = some (.directory slots) ∧ some name ∈ slots
  short : ∀ path item, T path = some item → path.length < n

/-- What stands in the way of a search along `names` from the directory at `path`: the first of them
that leads to no directory. -/
def obstacle? (T : Namespace) (path : List String) : (names : List String) → Option Error
  | [] => none
  | name :: rest =>
    match T (path ++ [name]) with
    | some (.directory _) => T.obstacle? (path ++ [name]) rest
    | some (.file _) => some .notADirectory
    | none => some .notFound

section New

variable {T T' : Namespace} {path way : List String} {name : String} {item other : Item}

/-- What an addition leads to was there before, or is the item that was added. -/
theorem exists_of_add {slots : List (Option String)} (directory : T path = some (.directory slots))
    (there : T.add path name item way = some other) :
    way = path ++ [name] ∨ ∃ before, T way = some before := by
  simp only [add, directory] at there
  by_cases new : way = path ++ [name]
  · exact .inl new
  · rw [Function.update_of_ne new] at there
    by_cases last : way = path
    · exact .inr ⟨_, last ▸ directory⟩
    · rw [Function.update_of_ne last] at there
      exact .inr ⟨_, there⟩

/-- What a removal leaves was there before. -/
theorem exists_of_remove {slots : List (Option String)}
    (directory : T path = some (.directory slots))
    (there : T.remove path name way = some other) : ∃ before, T way = some before := by
  simp only [remove, directory] at there
  by_cases gone : way = path ++ [name]
  · subst gone
    rw [Function.update_self] at there
    cases there
  · rw [Function.update_of_ne gone] at there
    by_cases last : way = path
    · exact ⟨_, last ▸ directory⟩
    · rw [Function.update_of_ne last] at there
      exact ⟨_, there⟩

/-- Nothing is new but what lies on the way. -/
theorem Grown.prefix_of_new (grown : T.Grown path T') (absent : T way = none)
    (there : T' way = some item) : way <+: path := by
  induction grown generalizing item with
  | root =>
    rw [absent] at there
    cases there
  | there _ _ ih => exact (ih there).trans (List.prefix_append _ _)
  | made _ directory _ _ ih =>
    rcases exists_of_add directory there with rfl | ⟨before, there⟩
    · exact List.prefix_rfl
    · exact (ih there).trans (List.prefix_append _ _)

/-- Nothing is new but what lies on the way, and the item that was made. -/
theorem Made.prefix_of_new (made : T.Made path name other T') (absent : T way = none)
    (there : T' way = some item) : way <+: path ++ [name] := by
  obtain ⟨T₁, slots, grown, directory, -, -, rfl⟩ := made
  rcases exists_of_add directory there with rfl | ⟨before, there⟩
  · exact List.prefix_rfl
  · exact (grown.prefix_of_new absent there).trans (List.prefix_append _ _)

end New

section Obstacle

variable {T : Namespace} {path names : List String}

theorem obstacle?_of_directory {name : String} {slots : List (Option String)}
    (h : T (path ++ [name]) = some (.directory slots)) (rest : List String) :
    T.obstacle? path (name :: rest) = T.obstacle? (path ++ [name]) rest := by
  rw [obstacle?, h]

theorem obstacle?_of_file {name : String} {size : Nat} (h : T (path ++ [name]) = some (.file size))
    (rest : List String) : T.obstacle? path (name :: rest) = some .notADirectory := by
  rw [obstacle?, h]

theorem obstacle?_of_none {name : String} (h : T (path ++ [name]) = none) (rest : List String) :
    T.obstacle? path (name :: rest) = some .notFound := by
  rw [obstacle?, h]

/-- What has a name behind it is a directory. -/
theorem Tree.exists_directory {n : Nat} (tree : T.Tree n) {name : String} {rest : List String}
    {item : Item} (h : T (path ++ name :: rest) = some item) :
    ∃ slots, T path = some (.directory slots) := by
  induction rest using List.reverseRecOn generalizing item with
  | nil =>
    obtain ⟨slots, directory, -⟩ := (tree.child path name).mp ⟨item, h⟩
    exact ⟨slots, directory⟩
  | append_singleton rest last ih =>
    have split : path ++ name :: (rest ++ [last]) = path ++ name :: rest ++ [last] := by simp
    rw [split] at h
    obtain ⟨slots, directory, -⟩ := (tree.child (path ++ name :: rest) last).mp ⟨item, h⟩
    exact ih directory

/-- Nothing stands in the way to a directory. -/
theorem Tree.obstacle?_eq_none {n : Nat} (tree : T.Tree n) {slots : List (Option String)}
    (h : T (path ++ names) = some (.directory slots)) : T.obstacle? path names = none := by
  induction names generalizing path with
  | nil => rfl
  | cons name rest ih =>
    rw [← List.singleton_append, ← List.append_assoc] at h
    have below : ∃ slots, T (path ++ [name]) = some (.directory slots) := by
      cases rest with
      | nil =>
        rw [List.append_nil] at h
        exact ⟨slots, h⟩
      | cons => exact tree.exists_directory h
    obtain ⟨_, directory⟩ := below
    rw [obstacle?_of_directory directory]
    exact ih h

/-- What stands in the way is a file or nothing at all, behind names that lead to a directory. -/
theorem exists_of_obstacle? {cause : Error} (h : T.obstacle? path names = some cause)
    (start : ∃ slots, T path = some (.directory slots)) :
    ∃ way name rest, names = way ++ name :: rest ∧
      (∃ slots, T (path ++ way) = some (.directory slots)) ∧
      (cause = .notADirectory ∧ (∃ size, T (path ++ way ++ [name]) = some (.file size)) ∨
        cause = .notFound ∧ T (path ++ way ++ [name]) = none) := by
  induction names generalizing path with
  | nil => cases h
  | cons name rest ih =>
    cases there : T (path ++ [name]) with
    | none =>
      rw [obstacle?_of_none there, Option.some.injEq] at h
      refine ⟨[], name, rest, rfl, ?_, .inr ⟨h.symm, ?_⟩⟩
      · simpa using start
      · simpa using there
    | some item =>
      cases item with
      | file size =>
        rw [obstacle?_of_file there, Option.some.injEq] at h
        refine ⟨[], name, rest, rfl, ?_, .inl ⟨h.symm, size, ?_⟩⟩
        · simpa using start
        · simpa using there
      | directory slots =>
        rw [obstacle?_of_directory there] at h
        obtain ⟨way, last, behind, rfl, directory, ends⟩ := ih h ⟨slots, there⟩
        refine ⟨name :: way, last, behind, rfl, ?_, ?_⟩
        · simpa using directory
        · simpa using ends

/-- Nothing has to be made on the way to a directory. -/
theorem Tree.grown {n : Nat} (tree : T.Tree n) (h : ∃ slots, T path = some (.directory slots)) :
    T.Grown path T := by
  induction path using List.reverseRecOn with
  | nil => exact .root
  | append_singleton path name ih =>
    obtain ⟨slots, there⟩ := h
    exact .there (ih (tree.exists_directory there)) there

end Obstacle

end Namespace

/-! ## The names in a table -/

namespace Directory

/-- The names in the slots. -/
def labels (dir : Directory) : List (Option String) :=
  dir.slots.map fun slot => slot.entry?.map Entry.name

@[simp] theorem length_labels (dir : Directory) : dir.labels.length = dir.capacity :=
  List.length_map _

theorem labels_eq_map (dir : Directory) : dir.labels = dir.table.map (Option.map Entry.name) := by
  rw [labels, table, List.map_map]
  rfl

theorem getElem?_labels (dir : Directory) (i : Nat) :
    dir.labels[i]? = if i < dir.capacity then some ((dir.held i).map Entry.name) else none := by
  rw [labels_eq_map, List.getElem?_map, getElem?_table]
  split <;> rfl

theorem getElem?_labels_eq_some_iff {dir : Directory} {i : Nat} {name : String} :
    dir.labels[i]? = some (some name) ↔ ∃ e, dir.held i = some e ∧ e.name = name := by
  rw [getElem?_labels]
  constructor
  · intro h
    split at h
    · exact Option.map_eq_some_iff.mp (Option.some.inj h)
    · cases h
  · rintro ⟨e, he, rfl⟩
    rw [if_pos (held_lt he), he]
    rfl

theorem some_mem_labels {dir : Directory} {name : String} :
    some name ∈ dir.labels ↔ ∃ i e, dir.held i = some e ∧ e.name = name := by
  rw [List.mem_iff_getElem?]
  exact exists_congr fun i => getElem?_labels_eq_some_iff

theorem none_mem_labels_iff {dir : Directory} : none ∈ dir.labels ↔ none ∈ dir.table := by
  simp [labels_eq_map]

theorem none_mem_labels {dir : Directory} :
    none ∈ dir.labels ↔ ∃ i, i < dir.capacity ∧ dir.held i = none :=
  none_mem_labels_iff.trans none_mem_table

/-- Listing a directory gives its labels, without the empty ones. -/
theorem names_eq (dir : Directory) : dir.names = dir.labels.filterMap id := by
  rw [names, entries, labels, List.filterMap_map, List.map_filterMap]
  rfl

theorem labels_new (capacity : Nat) : (new capacity).labels = List.replicate capacity none := by
  rw [labels, new, List.map_replicate]
  rfl

namespace Tidy

variable {dir : Directory} (h : dir.Tidy)
include h

theorem isSome_lookup?_iff {name : String} :
    (dir.lookup? name).isSome = true ↔ some name ∈ dir.labels := by
  rw [some_mem_labels, Option.isSome_iff_exists, exists_comm]
  exact exists_congr fun e => h.lookup?_eq_some_iff

/-- A new name that can be stored is refused only when no slot is empty. -/
theorem add_of_fresh {name : String} {field : NameField} (named : NameField.ofName name = .ok field)
    (fresh : some name ∉ dir.labels) (sector : Nat) (isDirectory : Bool) :
    (none ∈ dir.labels ∧ ∃ dir', dir.add name sector isDirectory = .ok dir') ∨
    (none ∉ dir.labels ∧ dir.add name sector isDirectory = .error .directoryFull) := by
  have absent : dir.index? name = none := by
    rw [Option.eq_none_iff_forall_not_mem]
    intro i hi
    obtain ⟨e, held, same⟩ := h.index?_eq_some_iff.mp hi
    exact fresh (some_mem_labels.mpr ⟨i, e, held, same⟩)
  simp only [none_mem_labels_iff, h.none_mem_table_iff, add, named, absent, bind, Except.bind,
    Option.isSome_none, Bool.false_eq_true, if_false]
  cases room : dir.slots.findIdx? (!·.isUsed) with
  | some i =>
    obtain ⟨hi, unused, -⟩ := List.findIdx?_eq_some_iff_getElem.mp room
    exact .inl ⟨⟨_, List.getElem_mem hi, by simpa using unused⟩, _, rfl⟩
  | none =>
    rw [List.findIdx?_eq_none_iff] at room
    exact .inr ⟨by simpa using room, rfl⟩

end Tidy

/-- Changing one slot changes one label. -/
theorem labels_update {old dir : Directory} {i : Nat} {e? : Option Entry}
    (capacity : dir.capacity = old.capacity) (held : dir.held = Function.update old.held i e?) :
    dir.labels = old.labels.set i (e?.map Entry.name) := by
  rw [labels_eq_map, labels_eq_map, table_update capacity held, List.map_set]

/-- The first empty slot has the first empty label. -/
theorem idxOf_none {dir : Directory} {i : Nat} (hi : i < dir.capacity) (empty : dir.held i = none)
    (lowest : ∀ j, j < i → dir.held j ≠ none) : dir.labels.idxOf none = i := by
  have label : dir.labels[i]? = some none := by
    rw [getElem?_labels, if_pos hi, empty]
    rfl
  refine findIdx_eq_of_getElem? label (beq_self_eq_true _) fun j label? hj found => ?_
  rw [getElem?_labels, if_pos (Nat.lt_trans hj hi), Option.some.injEq] at found
  subst found
  cases he : dir.held j with
  | none => exact absurd he (lowest j hj)
  | some e => rfl

/-- A name is the label of its slot alone. -/
theorem Tidy.idxOf_some {dir : Directory} (h : dir.Tidy) {i : Nat} {e : Entry}
    (he : dir.held i = some e) : dir.labels.idxOf (some e.name) = i := by
  have label := getElem?_labels_eq_some_iff.mpr ⟨e, he, rfl⟩
  refine findIdx_eq_of_getElem? label (beq_self_eq_true _) fun j label? hj found => ?_
  rw [beq_eq_false_iff_ne]
  rintro rfl
  obtain ⟨f, hf, name⟩ := getElem?_labels_eq_some_iff.mp found
  have := h.distinct j i f e hf he name
  omega

end Directory

/-! ## The namespace of a catalog -/

def Node.item (node : Node) : Item :=
  match node.table with
  | none => .file node.extent.size
  | some dir => .directory dir.labels

namespace Catalog

/-- What the paths in a catalog lead to. -/
def toNamespace (c : Catalog) : Namespace := fun path => ((c.find? path).bind c).map Node.item

variable {c : Catalog} {n : Nat} {path : List String}

theorem toNamespace_eq_some_iff {item : Item} :
    c.toNamespace path = some item ↔
      ∃ s node, c.find? path = some s ∧ c s = some node ∧ node.item = item := by
  rw [toNamespace, Option.map_eq_some_iff]
  constructor
  · rintro ⟨node, h, rfl⟩
    obtain ⟨s, hs, hnode⟩ := Option.bind_eq_some_iff.mp h
    exact ⟨s, node, hs, hnode, rfl⟩
  · rintro ⟨s, node, hs, hnode, rfl⟩
    exact ⟨node, Option.bind_eq_some_iff.mpr ⟨s, hs, hnode⟩, rfl⟩

theorem toNamespace_of_find? {s : Nat} {node : Node} (h : c.find? path = some s)
    (hs : c s = some node) : c.toNamespace path = some node.item :=
  toNamespace_eq_some_iff.mpr ⟨s, node, h, hs, rfl⟩

theorem toNamespace_eq_none_of_find? (h : c.find? path = none) : c.toNamespace path = none := by
  rw [toNamespace, h]
  rfl

/-- A path leads to a directory when it leads to a node with a table. -/
theorem toNamespace_eq_directory_iff {slots : List (Option String)} :
    c.toNamespace path = some (.directory slots) ↔
      ∃ s dir, c.find? path = some s ∧ c.table? s = some dir ∧ dir.labels = slots := by
  rw [toNamespace_eq_some_iff]
  constructor
  · rintro ⟨s, ⟨extent, _ | dir⟩, hs, hnode, hitem⟩
    · cases hitem
    · exact ⟨s, dir, hs, table?_eq_some_iff.mpr ⟨extent, hnode⟩, Item.directory.inj hitem⟩
  · rintro ⟨s, dir, hs, hdir, rfl⟩
    obtain ⟨extent, hnode⟩ := table?_eq_some_iff.mp hdir
    exact ⟨s, _, hs, hnode, rfl⟩

/-- A file has no table. -/
theorem toNamespace_eq_file {size : Nat} (h : c.toNamespace path = some (.file size)) :
    ∃ s, c.find? path = some s ∧ c.table? s = none := by
  obtain ⟨s, ⟨extent, table⟩, way, hs, item⟩ := toNamespace_eq_some_iff.mp h
  cases table with
  | none => exact ⟨s, way, by simp [table?, hs]⟩
  | some dir => cases item

namespace Valid

variable (v : c.Valid n)
include v

theorem find?_eq_none_of_toNamespace (h : c.toNamespace path = none) : c.find? path = none := by
  cases way : c.find? path with
  | none => rfl
  | some s =>
    obtain ⟨-, node, hnode⟩ := v.exists_node_of_find? way
    rw [toNamespace_of_find? way hnode] at h
    cases h

theorem toNamespace_of_file {s : Nat} (h : c.find? path = some s) (plain : c.table? s = none) :
    ∃ size, c.toNamespace path = some (.file size) := by
  obtain ⟨-, ⟨extent, table⟩, hnode⟩ := v.exists_node_of_find? h
  rw [table?, hnode] at plain
  obtain rfl : table = none := plain
  exact ⟨extent.size, toNamespace_of_find? h hnode⟩

/-- What the paths lead to is a tree. -/
theorem tree : c.toNamespace.Tree n where
  root := by
    obtain ⟨dir, hdir⟩ := v.root
    exact ⟨dir.labels, toNamespace_eq_directory_iff.mpr ⟨rootSector, dir, rfl, hdir, rfl⟩⟩
  capacity path slots h := by
    obtain ⟨s, dir, -, hdir, rfl⟩ := toNamespace_eq_directory_iff.mp h
    rw [Directory.length_labels]
    exact v.capacity hdir
  valid path slots name h hm := by
    obtain ⟨s, dir, -, hdir, rfl⟩ := toNamespace_eq_directory_iff.mp h
    obtain ⟨i, e, he, rfl⟩ := Directory.some_mem_labels.mp hm
    exact (v.tidy s dir hdir).validName he
  distinct path slots i j name h hi hj := by
    obtain ⟨s, dir, -, hdir, rfl⟩ := toNamespace_eq_directory_iff.mp h
    obtain ⟨e, he, rfl⟩ := Directory.getElem?_labels_eq_some_iff.mp hi
    obtain ⟨f, hf, same⟩ := Directory.getElem?_labels_eq_some_iff.mp hj
    exact (v.tidy s dir hdir).distinct i j e f he hf same.symm
  child path name := by
    constructor
    · rintro ⟨item, h⟩
      obtain ⟨t, node, ht, -, -⟩ := toNamespace_eq_some_iff.mp h
      obtain ⟨s, e, hs, he, -⟩ := find?_concat_eq_some_iff.mp ht
      obtain ⟨i, hi, hname⟩ := v.tidy.child?_eq_some_iff.mp he
      obtain ⟨dir, hdir, held⟩ := held?_eq_some_iff.mp hi
      exact ⟨dir.labels, toNamespace_eq_directory_iff.mpr ⟨s, dir, hs, hdir, rfl⟩,
        Directory.some_mem_labels.mpr ⟨i, e, held, hname⟩⟩
    · rintro ⟨slots, h, hm⟩
      obtain ⟨s, dir, hs, hdir, rfl⟩ := toNamespace_eq_directory_iff.mp h
      obtain ⟨i, e, held, hname⟩ := Directory.some_mem_labels.mp hm
      have he := v.tidy.child?_eq_some_iff.mpr
        ⟨i, held?_eq_some_iff.mpr ⟨dir, hdir, held⟩, hname⟩
      obtain ⟨-, -, node, hnode, -⟩ := v.exists_node_of_child? he
      exact ⟨node.item, toNamespace_of_find?
        (find?_concat_eq_some_iff.mpr ⟨s, e, hs, he, rfl⟩) hnode⟩
  short path item h := by
    obtain ⟨s, -, hs, -, -⟩ := toNamespace_eq_some_iff.mp h
    exact v.length_lt_of_find? hs

end Valid

/-- An insertion adds the item of the new node, and changes nothing else. -/
theorem Insertion.namespace_result (ins : Insertion n c) (v : c.Valid n)
    (h : c.find? path = some ins.parent) :
    ins.result.toNamespace = c.toNamespace.add path ins.entry.name ins.node.item := by
  obtain ⟨extent, hparent⟩ := ins.exists_parent
  have before : c.toNamespace path = some (.directory ins.old.labels) :=
    toNamespace_of_find? h hparent
  rw [Namespace.add, before]
  funext way
  simp only [Directory.idxOf_none ins.slot_lt ins.empty ins.lowest]
  rw [Function.update_apply, Function.update_apply]
  by_cases hway : way = path ++ [ins.entry.name]
  · subst hway
    rw [if_pos rfl]
    exact toNamespace_of_find? (ins.find?_result_new v h) ins.result_self
  · rw [if_neg hway]
    by_cases hpath : way = path
    · subst hpath
      rw [if_pos rfl, toNamespace_of_find? (ins.find?_result v h) (ins.result_parent hparent)]
      change some (Item.directory ins.new.labels) = _
      rw [Directory.labels_update ins.capacity ins.held]
      rfl
    · rw [if_neg hpath]
      cases hs : c.find? way with
      | none =>
        rw [toNamespace_eq_none_of_find? hs]
        apply toNamespace_eq_none_of_find?
        rw [Option.eq_none_iff_forall_not_mem]
        intro s hnew
        rcases (ins.find?_result_iff v).mp hnew with hold | ⟨-, path', hpath', rfl⟩
        · rw [hs] at hold
          cases hold
        · exact hway (by rw [v.find?_inj hpath' h])
      | some s =>
        obtain ⟨-, node, hnode⟩ := v.exists_node_of_find? hs
        have other : s ≠ ins.parent := by
          rintro rfl
          exact hpath (v.find?_inj hs h)
        rw [toNamespace_of_find? hs hnode]
        exact toNamespace_of_find? (ins.find?_result v hs)
          ((relink_of_ne (ins.ne_of_node hnode) other).trans hnode)

/-- A removal takes away the item of the node, and changes nothing else. -/
theorem Removal.namespace_result (rem : Removal c) (v : c.Valid n)
    (h : c.find? path = some rem.parent) :
    rem.result.toNamespace = c.toNamespace.remove path rem.entry.name := by
  obtain ⟨extent, hparent⟩ := rem.exists_parent
  have before : c.toNamespace path = some (.directory rem.old.labels) :=
    toNamespace_of_find? h hparent
  have there := rem.find?_entry v h
  rw [Namespace.remove, before]
  funext way
  simp only [(v.tidy _ _ rem.table).idxOf_some rem.there]
  rw [Function.update_apply, Function.update_apply]
  by_cases hway : way = path ++ [rem.entry.name]
  · subst hway
    rw [if_pos rfl]
    apply toNamespace_eq_none_of_find?
    rw [Option.eq_none_iff_forall_not_mem]
    intro s hs
    obtain ⟨hs, ne⟩ := (rem.find?_result_iff v).mp hs
    rw [there, Option.some.injEq] at hs
    exact ne hs.symm
  · rw [if_neg hway]
    by_cases hpath : way = path
    · subst hpath
      have kept := (rem.find?_result_iff v).mpr ⟨h, rem.parent_ne⟩
      rw [if_pos rfl, toNamespace_of_find? kept (rem.result_parent hparent)]
      change some (Item.directory rem.new.labels) = _
      rw [Directory.labels_update rem.capacity rem.held]
      rfl
    · rw [if_neg hpath]
      cases hs : c.find? way with
      | none =>
        rw [toNamespace_eq_none_of_find? hs]
        apply toNamespace_eq_none_of_find?
        rw [Option.eq_none_iff_forall_not_mem]
        intro s hnew
        rw [((rem.find?_result_iff v).mp hnew).1] at hs
        cases hs
      | some s =>
        obtain ⟨-, node, hnode⟩ := v.exists_node_of_find? hs
        have other : s ≠ rem.parent := by
          rintro rfl
          exact hpath (v.find?_inj hs h)
        have ne : s ≠ rem.entry.sector := by
          rintro rfl
          exact hway (v.find?_inj hs there)
        rw [toNamespace_of_find? hs hnode]
        exact toNamespace_of_find? ((rem.find?_result_iff v).mpr ⟨hs, ne⟩)
          ((relink_of_ne ne other).trans hnode)

end Catalog

end SectorFS
