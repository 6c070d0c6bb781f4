import Mathlib.Data.List.Induction
import Mathlib.Data.List.Perm.Subperm
import SectorFS.Proofs.Directory.Table
import SectorFS.Proofs.File.Header

/-!
# Catalogs

A `Catalog` says what a volume keeps at its header sectors. In a *valid* catalog every sector has
one owner at most, every entry names a node of its own, and every node but the free map hangs below
the root. So

* `Valid.find?_inj`: no two paths lead to one node, and no way down runs in a circle;
* `Valid.length_lt_of_find?`: no way down is as long as the disk has sectors.
-/

namespace SectorFS

/-- The sectors of an extent whose header is at `sector`, this one included. -/
def Extent.owned (extent : Extent) (sector : Nat) : List Nat := sector :: extent.sectors

theorem Extent.mem_owned_of_mem_index {extent : Extent} {sector i : Nat} (hi : i ∈ extent.index) :
    i ∈ extent.owned sector := List.mem_cons_of_mem _ (extent.mem_sectors.mpr (.inl hi))

theorem Extent.mem_owned_of_mem_data {extent : Extent} {sector i : Nat} (hi : i ∈ extent.data) :
    i ∈ extent.owned sector := List.mem_cons_of_mem _ (extent.mem_sectors.mpr (.inr hi))

/-- A file, or a directory with its table. -/
structure Node where
  extent : Extent
  table : Option Directory

/-- The nodes under their header sectors. -/
abbrev Catalog := Nat → Option Node

namespace Catalog

variable (c : Catalog)

def table? (s : Nat) : Option Directory := (c s).bind Node.table

/-- The entry in slot `i` of the directory at `p`. -/
def held? (p i : Nat) : Option Entry := (c.table? p).bind (·.held i)

/-- The entry under a name in the directory at `p`. -/
def child? (p : Nat) (name : String) : Option Entry := (c.table? p).bind (·.lookup? name)

/-- Where the names lead from the root. -/
def find? (path : List String) : Option Nat :=
  path.foldlM (fun s name => (c.child? s name).map Entry.sector) rootSector

/-- Some node has `i` as its header sector or among its other sectors. -/
def Owns (i : Nat) : Prop := ∃ s node, c s = some node ∧ i ∈ node.extent.owned s

/-- What holds of the nodes on a disk of `n` sectors between any two operations. -/
structure Valid (n : Nat) : Prop where
  map : ∃ extent, c freeMapSector = some ⟨extent, none⟩ ∧ extent.size = Size.units n 8
  root : ∃ dir, c.table? rootSector = some dir
  directory : ∀ s extent dir, c s = some ⟨extent, some dir⟩ →
    dir.Tidy ∧ dir.capacity = directoryCapacity ∧ extent.size = directoryCapacity * slotSize
  apart : ∀ s node, c s = some node → s ∉ node.extent.sectors
  lt : ∀ i, c.Owns i → i < n
  disjoint : ∀ s t a b i, c s = some a → c t = some b →
    i ∈ a.extent.owned s → i ∈ b.extent.owned t → s = t
  child : ∀ p i e, c.held? p i = some e → e.sector ≠ freeMapSector ∧ e.sector ≠ rootSector ∧
    ∃ node, c e.sector = some node ∧ node.table.isSome = e.isDirectory
  single : ∀ p q i j e f, c.held? p i = some e → c.held? q j = some f →
    e.sector = f.sector → p = q ∧ i = j
  reached : ∀ s node, c s = some node → s = freeMapSector ∨ ∃ path, c.find? path = some s

variable {c}

theorem table?_eq_some_iff {s : Nat} {dir : Directory} :
    c.table? s = some dir ↔ ∃ extent, c s = some ⟨extent, some dir⟩ := by
  rw [table?, Option.bind_eq_some_iff]
  constructor
  · rintro ⟨⟨extent, table⟩, hs, rfl⟩
    exact ⟨extent, hs⟩
  · rintro ⟨extent, hs⟩
    exact ⟨_, hs, rfl⟩

theorem held?_eq_some_iff {p i : Nat} {e : Entry} :
    c.held? p i = some e ↔ ∃ dir, c.table? p = some dir ∧ dir.held i = some e :=
  Option.bind_eq_some_iff

/-- A header sector has one extent. -/
theorem extent_unique {s : Nat} {extent extent' : Extent} {table table' : Option Directory}
    (h : c s = some ⟨extent, table⟩) (h' : c s = some ⟨extent', table'⟩) : extent = extent' :=
  congrArg Node.extent (Option.some.inj (h.symm.trans h'))

theorem owns_header {s : Nat} {node : Node} (h : c s = some node) : c.Owns s :=
  ⟨s, node, h, List.mem_cons_self⟩

theorem owns_sector {s i : Nat} {node : Node} (h : c s = some node)
    (hi : i ∈ node.extent.sectors) : c.Owns i :=
  ⟨s, node, h, List.mem_cons_of_mem _ hi⟩

theorem owns_data {s i : Nat} {node : Node} (h : c s = some node) (hi : i ∈ node.extent.data) :
    c.Owns i := ⟨s, node, h, Extent.mem_owned_of_mem_data hi⟩

/-- All tables are tidy. -/
def Tidy (c : Catalog) : Prop := ∀ s dir, c.table? s = some dir → dir.Tidy

/-- A name leads to the entry of the slot that holds it. -/
theorem Tidy.child?_eq_some_iff (h : c.Tidy) {p : Nat} {name : String} {e : Entry} :
    c.child? p name = some e ↔ ∃ i, c.held? p i = some e ∧ e.name = name := by
  rw [child?, Option.bind_eq_some_iff]
  constructor
  · rintro ⟨dir, hdir, he⟩
    obtain ⟨i, hi, hname⟩ := (h p dir hdir).lookup?_eq_some_iff.mp he
    exact ⟨i, held?_eq_some_iff.mpr ⟨dir, hdir, hi⟩, hname⟩
  · rintro ⟨i, hi, hname⟩
    obtain ⟨dir, hdir, he⟩ := held?_eq_some_iff.mp hi
    exact ⟨dir, hdir, (h p dir hdir).lookup?_eq_some_iff.mpr ⟨i, he, hname⟩⟩

/-! ## Paths -/

@[simp] theorem find?_nil : c.find? [] = some rootSector := rfl

/-- A way that is lost stays lost. -/
theorem find?_append_eq_none {path : List String} (rest : List String) (h : c.find? path = none) :
    c.find? (path ++ rest) = none := by
  rw [find?, List.foldlM_append]
  change ((c.find? path).bind fun s => _) = _
  simp [h]

theorem find?_concat (path : List String) (name : String) :
    c.find? (path ++ [name]) =
      (c.find? path).bind fun s => (c.child? s name).map Entry.sector := by
  rw [find?, List.foldlM_append]
  change ((c.find? path).bind fun s => _) = _
  congr 1
  funext s
  exact bind_pure _

theorem find?_concat_eq_none {path : List String} {p : Nat} {name : String}
    (h : c.find? path = some p) (absent : c.child? p name = none) :
    c.find? (path ++ [name]) = none := by
  simp [find?_concat, h, absent]

/-- Without a directory at the end of a path there is nothing under it. -/
theorem find?_concat_eq_none_of_missing {path : List String} {name : String}
    (missing : ¬ ∃ t dir, c.find? path = some t ∧ c.table? t = some dir) :
    c.find? (path ++ [name]) = none := by
  cases way : c.find? path with
  | none => exact find?_append_eq_none [name] way
  | some t =>
    apply find?_concat_eq_none way
    cases table : c.table? t with
    | none => rw [child?, table, Option.bind_none]
    | some dir => exact absurd ⟨t, dir, way, table⟩ missing

/-- No way to a directory goes through a file. -/
theorem table?_eq_none_of_file {path rest : List String} {s t : Nat} (h : c.find? path = some s)
    (file : c.table? s = none) (below : c.find? (path ++ rest) = some t) : c.table? t = none := by
  cases rest with
  | nil =>
    rw [List.append_nil, h, Option.some.injEq] at below
    rw [← below]
    exact file
  | cons name rest =>
    have lost : c.find? (path ++ [name]) = none :=
      find?_concat_eq_none h (by simp [child?, file])
    rw [← List.singleton_append, ← List.append_assoc, find?_append_eq_none rest lost] at below
    cases below

theorem find?_concat_eq_some_iff {path : List String} {name : String} {t : Nat} :
    c.find? (path ++ [name]) = some t ↔
      ∃ s e, c.find? path = some s ∧ c.child? s name = some e ∧ e.sector = t := by
  rw [find?_concat, Option.bind_eq_some_iff]
  constructor
  · rintro ⟨s, hs, ht⟩
    obtain ⟨e, he, rfl⟩ := Option.map_eq_some_iff.mp ht
    exact ⟨s, e, hs, he, rfl⟩
  · rintro ⟨s, e, hs, he, rfl⟩
    exact ⟨s, hs, Option.map_eq_some_iff.mpr ⟨e, he, rfl⟩⟩

namespace Valid

variable {n : Nat} (v : c.Valid n)
include v

theorem tidy : c.Tidy := by
  intro s dir h
  obtain ⟨extent, hs⟩ := table?_eq_some_iff.mp h
  exact (v.directory s extent dir hs).1

theorem capacity {s : Nat} {dir : Directory} (h : c.table? s = some dir) :
    dir.capacity = directoryCapacity := by
  obtain ⟨extent, hs⟩ := table?_eq_some_iff.mp h
  exact (v.directory s extent dir hs).2.1

theorem ne_map {s : Nat} {dir : Directory} (h : c.table? s = some dir) : s ≠ freeMapSector := by
  rintro rfl
  obtain ⟨extent, hmap, -⟩ := v.map
  rw [table?, hmap] at h
  cases h

/-- One sector has one entry at most. -/
theorem held?_unique {p q i j : Nat} {e f : Entry} (he : c.held? p i = some e)
    (hf : c.held? q j = some f) (same : e.sector = f.sector) : p = q ∧ i = j ∧ e = f := by
  obtain ⟨rfl, rfl⟩ := v.single p q i j e f he hf same
  rw [he, Option.some.injEq] at hf
  exact ⟨rfl, rfl, hf⟩

theorem exists_node_of_child? {p : Nat} {name : String} {e : Entry}
    (h : c.child? p name = some e) :
    e.sector ≠ freeMapSector ∧ e.sector ≠ rootSector ∧
      ∃ node, c e.sector = some node ∧ node.table.isSome = e.isDirectory := by
  obtain ⟨i, hi, -⟩ := v.tidy.child?_eq_some_iff.mp h
  exact v.child p i e hi

/-- An entry says whether it is for a directory. -/
theorem isSome_table?_of_child? {p : Nat} {name : String} {e : Entry}
    (h : c.child? p name = some e) : (c.table? e.sector).isSome = e.isDirectory := by
  obtain ⟨-, -, node, hnode, kind⟩ := v.exists_node_of_child? h
  rw [table?, hnode]
  exact kind

/-- From a directory a name leads to a directory, to a file, or nowhere. -/
theorem step_cases {path : List String} {s : Nat} {start : Directory} (name : String)
    (hs : c.find? path = some s) (hstart : c.table? s = some start) :
    (∃ entry below, start.lookup? name = some entry ∧ entry.isDirectory = true ∧
      c.find? (path ++ [name]) = some entry.sector ∧ c.table? entry.sector = some below) ∨
    (∃ entry, start.lookup? name = some entry ∧ entry.isDirectory = false ∧
      c.find? (path ++ [name]) = some entry.sector ∧ c.table? entry.sector = none) ∨
    start.lookup? name = none ∧ c.find? (path ++ [name]) = none := by
  have same : c.child? s name = start.lookup? name := by
    simp [child?, hstart]
  cases hlookup : start.lookup? name with
  | none => exact .inr (.inr ⟨rfl, find?_concat_eq_none hs (same.trans hlookup)⟩)
  | some entry =>
    have child := same.trans hlookup
    have way : c.find? (path ++ [name]) = some entry.sector :=
      find?_concat_eq_some_iff.mpr ⟨s, entry, hs, child, rfl⟩
    have kind := v.isSome_table?_of_child? child
    cases hdir : entry.isDirectory with
    | true =>
      obtain ⟨below, table⟩ := Option.isSome_iff_exists.mp (kind.trans hdir)
      exact .inl ⟨entry, below, rfl, hdir, way, table⟩
    | false => exact .inr (.inl ⟨entry, rfl, hdir, way, by simpa using kind.trans hdir⟩)

/-- A path leads to a node, and never to the free map. -/
theorem exists_node_of_find? {path : List String} {s : Nat} (h : c.find? path = some s) :
    s ≠ freeMapSector ∧ ∃ node, c s = some node := by
  induction path using List.reverseRecOn with
  | nil =>
    obtain rfl := Option.some.inj h
    obtain ⟨dir, hdir⟩ := v.root
    obtain ⟨extent, hs⟩ := table?_eq_some_iff.mp hdir
    exact ⟨by decide, _, hs⟩
  | append_singleton path name _ =>
    obtain ⟨p, e, -, he, rfl⟩ := find?_concat_eq_some_iff.mp h
    obtain ⟨hmap, -, node, hnode, -⟩ := v.exists_node_of_child? he
    exact ⟨hmap, node, hnode⟩

/-- No two paths lead to one node. -/
theorem find?_inj {path path' : List String} {s : Nat} (h : c.find? path = some s)
    (h' : c.find? path' = some s) : path = path' := by
  induction path using List.reverseRecOn generalizing path' s with
  | nil =>
    obtain rfl := Option.some.inj h
    cases path' using List.reverseRecOn with
    | nil => rfl
    | append_singleton path' name _ =>
      obtain ⟨p, e, -, he, hs⟩ := find?_concat_eq_some_iff.mp h'
      exact absurd hs (v.exists_node_of_child? he).2.1
  | append_singleton path name ih =>
    obtain ⟨p, e, hp, he, hs⟩ := find?_concat_eq_some_iff.mp h
    cases path' using List.reverseRecOn with
    | nil =>
      obtain rfl := Option.some.inj h'
      exact absurd hs (v.exists_node_of_child? he).2.1
    | append_singleton path' name' _ =>
      obtain ⟨q, f, hq, hf, hs'⟩ := find?_concat_eq_some_iff.mp h'
      obtain ⟨i, hi, rfl⟩ := v.tidy.child?_eq_some_iff.mp he
      obtain ⟨j, hj, rfl⟩ := v.tidy.child?_eq_some_iff.mp hf
      obtain ⟨rfl, rfl, rfl⟩ := v.held?_unique hi hj (hs.trans hs'.symm)
      rw [ih hp hq]

/-- The nodes on the way to a node are distinct, one for each name and one more. -/
theorem exists_stops {path : List String} {s : Nat} (h : c.find? path = some s) :
    ∃ stops : List Nat, stops.Nodup ∧ stops.length = path.length + 1 ∧
      ∀ t ∈ stops, ∃ way, c.find? way = some t ∧ way.length ≤ path.length := by
  induction path using List.reverseRecOn generalizing s with
  | nil =>
    refine ⟨[s], by simp, rfl, fun t ht => ?_⟩
    obtain rfl := List.mem_singleton.mp ht
    exact ⟨[], h, Nat.le_refl 0⟩
  | append_singleton path name ih =>
    obtain ⟨p, e, hp, -, -⟩ := find?_concat_eq_some_iff.mp h
    obtain ⟨stops, nodup, length, ways⟩ := ih hp
    refine ⟨s :: stops, List.nodup_cons.mpr ⟨?_, nodup⟩, by simp [length], ?_⟩
    · intro hm
      obtain ⟨way, hway, short⟩ := ways s hm
      rw [v.find?_inj hway h, List.length_append, List.length_singleton] at short
      omega
    · intro t ht
      rw [List.length_append, List.length_singleton]
      rcases List.mem_cons.mp ht with rfl | ht
      · exact ⟨_, h, by simp⟩
      · obtain ⟨way, hway, short⟩ := ways t ht
        exact ⟨way, hway, by omega⟩

/-- No way down is as long as the disk has sectors. -/
theorem length_lt_of_find? {path : List String} {s : Nat} (h : c.find? path = some s) :
    path.length < n := by
  obtain ⟨stops, nodup, length, ways⟩ := v.exists_stops h
  have inside : stops ⊆ List.range n := by
    intro t ht
    obtain ⟨way, hway, -⟩ := ways t ht
    obtain ⟨-, node, hnode⟩ := v.exists_node_of_find? hway
    exact List.mem_range.mpr (v.lt t (owns_header hnode))
  have := (nodup.subperm inside).length_le
  rw [List.length_range] at this
  omega

end Valid

end Catalog

end SectorFS
