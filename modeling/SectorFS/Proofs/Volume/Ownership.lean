import SectorFS.Proofs.Volume.Observe
import SectorFS.Proofs.Volume.Reachable

/-!
# Who owns which sector

At the end of every run the disk is `Consistent`: its directories form a tree, no two headers on it
share a sector, and the free map marks exactly the sectors that some header owns.
-/

namespace SectorFS

/-- The chain has the blocks that its data sectors need, and they fill its slots from the first on.
-/
structure Header.Full (header : Header) : Prop where
  blocks : header.chain.blocks.length = Size.units header.sectorCount slotsPerBlock
  filled : ∀ b stored slot, header.chain.blocks[b]? = some stored → slot < slotsPerBlock →
    ((∃ s, stored.block.dataSector? slot = some s) ↔
      slotsPerBlock * b + slot < header.sectorCount)

/-- The sectors of a file whose header is at `s`. -/
def Header.owned (header : Header) (s : Nat) : List Nat :=
  s :: (header.indexSectors ++ header.dataSectors)

namespace Disk

/-- The directories that entries lead to from the root, by the number of entries on the way. -/
inductive Reaches (disk : Disk) : (depth : Nat) → (s : Nat) → Prop where
  | root : Reaches disk 0 rootSector
  | entry {depth p dir i e} : Reaches disk depth p → disk.table? p = some dir →
      dir.held i = some e → e.isDirectory = true → Reaches disk (depth + 1) e.sector

variable (disk : Disk)

/-- Slot `i` of the directory at `p`, which is reached, holds the entry. -/
def Holds (p i : Nat) (e : Entry) : Prop :=
  (∃ depth, disk.Reaches depth p) ∧ ∃ dir, disk.table? p = some dir ∧ dir.held i = some e

/-- The header sectors of the system files and of all that the entries name. -/
def Heads (s : Nat) : Prop :=
  s = freeMapSector ∨ s = rootSector ∨ ∃ p i e, disk.Holds p i e ∧ e.sector = s

/-- The header at `s` owns sector `i`. -/
def Claims (s i : Nat) : Prop :=
  disk.Heads s ∧ ∃ header, disk.header? s = some header ∧ i ∈ header.owned s

/-- What holds of a disk of `n` sectors between any two actions. -/
structure Consistent (n : Nat) : Prop where
  directory : ∀ depth p, disk.Reaches depth p → depth < n ∧
    ∃ dir, disk.table? p = some dir ∧ dir.capacity = directoryCapacity ∧ dir.Tidy
  acyclic : ∀ depth depth' p, disk.Reaches depth p → disk.Reaches depth' p → depth = depth'
  single : ∀ p q i j e f, disk.Holds p i e → disk.Holds q j f → e.sector = f.sector →
    p = q ∧ i = j
  system : ∀ p i e, disk.Holds p i e → e.sector ≠ freeMapSector ∧ e.sector ≠ rootSector
  header : ∀ s, disk.Heads s → ∃ header, disk.header? s = some header ∧ header.Full ∧
    (header.owned s).Nodup ∧ ∀ i ∈ header.owned s, i < n
  apart : ∀ s t i, disk.Claims s i → disk.Claims t i → s = t
  map : ∃ map, disk.freeMap? = some map ∧ map.sectorCount = n ∧
    ∀ i, map.isUsed i = .ok true ↔ ∃ s, disk.Claims s i

end Disk

namespace Extent

variable (extent : Extent)

theorem full_header : extent.header.Full where
  blocks := extent.length_blocks
  filled b stored slot hb hslot := by
    have data : stored.block.dataSector? slot = extent.data[slotsPerBlock * b + slot]? :=
      Chain.dataSector?_deal extent.sector_lt hb hslot
    change _ ↔ _ < extent.count
    rw [data, ← extent.length_data]
    constructor
    · rintro ⟨s, hs⟩
      exact (List.getElem?_eq_some_iff.mp hs).1
    · exact fun lt => ⟨_, List.getElem?_eq_getElem lt⟩

theorem owned_header (s : Nat) : (extent.header.owned s).Perm (extent.owned s) := by
  have index : extent.header.indexSectors = extent.index := extent.indexSectors_chain
  have data : extent.header.dataSectors = extent.data := extent.dataSectors_chain
  unfold Header.owned
  rw [index, data]
  exact extent.perm_sectors.cons s

end Extent

namespace Catalog.LaidOut

variable {c : Catalog} {n : Nat} {disk : Disk} {map : FreeMap}
variable (l : c.LaidOut n disk.store map) (sound : disk.Sound n)
include l sound

theorem reaches_of_find? {path : List String} {p : Nat} {dir : Directory}
    (h : c.find? path = some p) (table : c.table? p = some dir) : disk.Reaches path.length p := by
  induction path using List.reverseRecOn generalizing p dir with
  | nil =>
    obtain rfl := Option.some.inj h
    exact .root
  | append_singleton path name ih =>
    obtain ⟨q, e, way, child, rfl⟩ := find?_concat_eq_some_iff.mp h
    obtain ⟨i, held, -⟩ := l.valid.tidy.child?_eq_some_iff.mp child
    obtain ⟨above, habove, held⟩ := held?_eq_some_iff.mp held
    have directory : e.isDirectory = true := by
      rw [← l.valid.isSome_table?_of_child? child, table]
      rfl
    rw [List.length_append]
    exact .entry (ih way habove) (l.table?_eq sound habove) held directory

theorem find?_of_reaches {depth p : Nat} (h : disk.Reaches depth p) :
    ∃ path dir, path.length = depth ∧ c.find? path = some p ∧ c.table? p = some dir := by
  induction h with
  | root =>
    obtain ⟨dir, root⟩ := l.valid.root
    exact ⟨[], dir, rfl, find?_nil, root⟩
  | @entry depth p dir i e _ table held directory ih =>
    obtain ⟨path, dir', rfl, way, table'⟩ := ih
    rw [l.table?_eq sound table', Option.some.injEq] at table
    subst table
    have child := l.valid.tidy.child?_eq_some_iff.mpr
      ⟨i, held?_eq_some_iff.mpr ⟨dir', table', held⟩, rfl⟩
    have kind := l.valid.isSome_table?_of_child? child
    obtain ⟨dir, below⟩ := Option.isSome_iff_exists.mp (kind.trans directory)
    exact ⟨path ++ [e.name], dir, by simp, find?_concat_eq_some_iff.mpr ⟨p, e, way, child, rfl⟩,
      below⟩

theorem held?_of_holds {p i : Nat} {e : Entry} (h : disk.Holds p i e) : c.held? p i = some e := by
  obtain ⟨⟨depth, reaches⟩, dir, table, held⟩ := h
  obtain ⟨path, dir', -, -, table'⟩ := l.find?_of_reaches sound reaches
  rw [l.table?_eq sound table', Option.some.injEq] at table
  subst table
  exact held?_eq_some_iff.mpr ⟨dir', table', held⟩

theorem holds_of_held? {path : List String} {p i : Nat} {e : Entry} (way : c.find? path = some p)
    (h : c.held? p i = some e) : disk.Holds p i e := by
  obtain ⟨dir, table, held⟩ := held?_eq_some_iff.mp h
  exact ⟨⟨_, l.reaches_of_find? sound way table⟩, dir, l.table?_eq sound table, held⟩

/-- Every node has a header, and no other sector has one. -/
theorem heads_iff {s : Nat} : disk.Heads s ↔ ∃ node, c s = some node := by
  constructor
  · rintro (rfl | rfl | ⟨p, i, e, holds, rfl⟩)
    · obtain ⟨extent, hmap, -⟩ := l.valid.map
      exact ⟨_, hmap⟩
    · obtain ⟨dir, root⟩ := l.valid.root
      obtain ⟨extent, hroot⟩ := table?_eq_some_iff.mp root
      exact ⟨_, hroot⟩
    · obtain ⟨-, -, node, hnode, -⟩ := l.valid.child p i e (l.held?_of_holds sound holds)
      exact ⟨node, hnode⟩
  · rintro ⟨node, hnode⟩
    rcases l.valid.reached s node hnode with rfl | ⟨path, way⟩
    · exact .inl rfl
    · cases path using List.reverseRecOn with
      | nil => exact .inr (.inl (Option.some.inj way).symm)
      | append_singleton path name =>
        obtain ⟨p, e, above, child, rfl⟩ := find?_concat_eq_some_iff.mp way
        obtain ⟨i, held, -⟩ := l.valid.tidy.child?_eq_some_iff.mp child
        exact .inr (.inr ⟨p, i, e, l.holds_of_held? sound above held, rfl⟩)

theorem claims_iff {s i : Nat} :
    disk.Claims s i ↔ ∃ node, c s = some node ∧ i ∈ node.extent.owned s := by
  unfold Disk.Claims
  rw [l.heads_iff sound]
  constructor
  · rintro ⟨⟨node, hnode⟩, header, hheader, hi⟩
    rw [l.header?_eq sound hnode, Option.some.injEq] at hheader
    subst hheader
    exact ⟨node, hnode, (node.extent.owned_header s).mem_iff.mp hi⟩
  · rintro ⟨node, hnode, hi⟩
    exact ⟨⟨node, hnode⟩, _, l.header?_eq sound hnode, (node.extent.owned_header s).mem_iff.mpr hi⟩

/-- A disk that a catalog is laid out on is consistent. -/
theorem consistent : disk.Consistent n where
  directory depth p h := by
    obtain ⟨path, dir, rfl, way, table⟩ := l.find?_of_reaches sound h
    exact ⟨l.valid.length_lt_of_find? way, dir, l.table?_eq sound table, l.valid.capacity table,
      l.valid.tidy p dir table⟩
  acyclic depth depth' p h h' := by
    obtain ⟨path, -, rfl, way, -⟩ := l.find?_of_reaches sound h
    obtain ⟨path', -, rfl, way', -⟩ := l.find?_of_reaches sound h'
    rw [l.valid.find?_inj way way']
  single p q i j e f he hf same :=
    l.valid.single p q i j e f (l.held?_of_holds sound he) (l.held?_of_holds sound hf) same
  system p i e h := by
    obtain ⟨hmap, hroot, -⟩ := l.valid.child p i e (l.held?_of_holds sound h)
    exact ⟨hmap, hroot⟩
  header s h := by
    obtain ⟨node, hnode⟩ := (l.heads_iff sound).mp h
    have perm := node.extent.owned_header s
    refine ⟨_, l.header?_eq sound hnode, node.extent.full_header, ?_, fun i hi => ?_⟩
    · exact perm.nodup_iff.mpr (List.nodup_cons.mpr ⟨l.valid.apart s node hnode, node.extent.nodup⟩)
    · exact l.valid.lt i ⟨s, node, hnode, perm.mem_iff.mp hi⟩
  apart s t i hs ht := by
    obtain ⟨a, ha, hi⟩ := (l.claims_iff sound).mp hs
    obtain ⟨b, hb, hi'⟩ := (l.claims_iff sound).mp ht
    exact l.valid.disjoint s t a b i ha hb hi hi'
  map := by
    refine ⟨map, l.freeMap?_eq sound, l.count, fun i => ?_⟩
    have owns : c.Owns i ↔ ∃ s, disk.Claims s i := by
      simp only [l.claims_iff sound, Owns]
    rw [← owns, ← l.uses i, FreeMap.isUsed_eq_ok_true_iff]

end Catalog.LaidOut

/-- Whatever was done since the format, no sector is lost, and none is claimed twice. -/
theorem Run.disk_consistent {n : Nat} {past : List Action} {volume : Volume} {disk : Disk}
    (large : 15 ≤ n) (small : n ≤ diskLimit) (run : Run n past volume disk) :
    disk.Consistent n := by
  obtain ⟨c, map, m, -⟩ := run.mounted large small
  exact m.laidOut.consistent m.sound

theorem disk_consistent_sample :
    ∃ volume disk, Run 40 sample volume disk ∧ disk.Consistent 40 := by
  obtain ⟨volume, disk, run⟩ := exists_run_sample
  exact ⟨volume, disk, run, run.disk_consistent (by decide) (by decide)⟩

end SectorFS
