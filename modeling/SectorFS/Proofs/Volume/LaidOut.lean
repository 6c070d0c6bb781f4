import SectorFS.Proofs.Directory.Stored
import SectorFS.Proofs.File.Allocation
import SectorFS.Proofs.FreeMap.Stored
import SectorFS.Proofs.Volume.Removal
import SectorFS.Volume.Basic

/-!
# Catalogs on disk

`Catalog.LaidOut` says that a store holds a valid catalog together with a free map that is true to
it, and `Volume.Over` that a mounted volume knows no more than the catalog says. From there every
system file, header and table loads as what the catalog has for it. Writes keep the layout

* when they stay in the data sectors of one file (`LaidOut.write_data`);
* when they stay in sectors without an owner (`LaidOut.write_free`).
-/

namespace SectorFS

namespace Store

/-- Writes elsewhere leave the bytes of the sectors alone. -/
theorem bytes_after {store : Store} {ws : Writes} {sectors : List Nat}
    (h : ∀ w ∈ ws, w.1 ∉ sectors) : (store.after ws).bytes sectors = store.bytes sectors := by
  apply bytes_congr
  intro s hs
  apply after_apply_of_notMem
  intro hm
  obtain ⟨w, hw, rfl⟩ := List.mem_map.mp hm
  exact h w hw hs

theorem after_apply_of_forall {store : Store} {ws : Writes} {s : Nat} (h : ∀ w ∈ ws, w.1 ≠ s) :
    store.after ws s = store s := by
  apply after_apply_of_notMem
  intro hm
  obtain ⟨w, hw, rfl⟩ := List.mem_map.mp hm
  exact h w hw rfl

end Store

namespace Extent

variable {extent : Extent} {store : Store} {s n : Nat}

/-- Writes that spare the header and the index blocks leave the extent stored. -/
theorem StoredAt.after {ws : Writes} (h : extent.StoredAt store s)
    (away : ∀ w ∈ ws, w.1 ≠ s ∧ w.1 ∉ extent.index) : extent.StoredAt (store.after ws) s := by
  apply h.congr
  · exact Store.after_apply_of_forall fun w hw => (away w hw).1
  · intro i hi
    apply Store.after_apply_of_forall
    rintro w hw rfl
    exact (away w hw).2 hi

/-- Writes to its own data leave an extent stored. -/
theorem StoredAt.after_of_data {ws : Writes} (h : extent.StoredAt store s)
    (apart : s ∉ extent.sectors) (targets : ∀ w ∈ ws, w.1 ∈ extent.data) :
    extent.StoredAt (store.after ws) s := by
  apply h.after
  intro w hw
  constructor
  · rintro rfl
    exact apart (extent.mem_sectors.mpr (.inr (targets w hw)))
  · intro hm
    exact extent.notMem_data_of_mem_index hm (targets w hw)

/-- Writes away from all its sectors leave an extent stored. -/
theorem StoredAt.after_of_notMem {ws : Writes} (h : extent.StoredAt store s)
    (away : ∀ w ∈ ws, w.1 ∉ extent.owned s) : extent.StoredAt (store.after ws) s := by
  apply h.after
  intro w hw
  constructor
  · intro same
    exact away w hw (same ▸ List.mem_cons_self)
  · intro hm
    exact away w hw (mem_owned_of_mem_index hm)

/-- Writes away from all its sectors leave the data of an extent alone. -/
theorem bytes_after {ws : Writes} (away : ∀ w ∈ ws, w.1 ∉ extent.owned s) :
    (store.after ws).bytes extent.data = store.bytes extent.data :=
  Store.bytes_after fun w hw hm => away w hw (mem_owned_of_mem_data hm)

/-- Storing the header puts the extent in place, in sectors that it owns but none that hold its
data. -/
theorem settles_header {K : Nat → Prop} (apart : s ∉ extent.sectors)
    (lt : ∀ i ∈ extent.owned s, i < n) (store : Store) :
    ∃ ws : Writes, Settles n store K (extent.header.store s) (.ok ()) ws ∧
      extent.StoredAt (store.after ws) s ∧
      (∀ w ∈ ws, w.1 ∈ extent.owned s ∧ w.1 ∉ extent.data) := by
  have fresh : s ∉ extent.index := fun hm => apart (extent.mem_sectors.mpr (.inl hm))
  refine ⟨_, Extent.settles_store (lt s List.mem_cons_self)
    (fun i hi => lt i (List.mem_cons_of_mem _ hi)), Extent.storedAt_writes fresh, ?_⟩
  intro w hw
  have target := List.mem_map_of_mem (f := Prod.fst) hw
  have index : extent.header.indexSectors = extent.index := extent.indexSectors_chain
  rw [Header.map_fst_writes, index] at target
  rcases List.mem_cons.mp target with same | hm
  · rw [same]
    exact ⟨List.mem_cons_self, fun hd => apart (extent.mem_sectors.mpr (.inr hd))⟩
  · exact ⟨mem_owned_of_mem_index hm, extent.notMem_data_of_mem_index hm⟩

theorem runs_file (lt : ∀ i ∈ extent.owned s, i < n) (h : extent.StoredAt store s) :
    Runs n store (File.load s) (.ok ⟨s, extent.header, 0⟩) [] :=
  .andThen (Extent.runs_load (lt s List.mem_cons_self)
    (fun i hi => lt i (List.mem_cons_of_mem _ hi)) h) (.done _)

theorem addresses {file : File} (h : file.header = extent.header)
    (lt : ∀ i ∈ extent.sectors, i < n) : file.Addresses n extent.data where
  sectorAt i s hs := by
    rw [h]
    exact extent.sectorAt_header hs
  length_le := by
    rw [File.length, h]
    exact extent.size_le
  nodup := extent.nodup_data
  lt i hi := lt i (extent.mem_sectors.mpr (.inr hi))

/-- A directory fills its data sectors. -/
theorem take_bytes (store : Store) (h : extent.size = directoryCapacity * slotSize) :
    (store.bytes extent.data).take (directoryCapacity * slotSize) = store.bytes extent.data := by
  apply List.take_of_length_le
  rw [Store.length_bytes, extent.length_data, count, h]
  exact Nat.le_refl _

section Storing

variable {K : Nat → Prop} {file : File} (same : file.header = extent.header)
variable (lt : ∀ i ∈ extent.sectors, i < n)
include same lt

/-- Storing a map that fills the extent writes to its data sectors. When they were read before, it
cannot fail. -/
theorem settles_map {map : FreeMap} (size : extent.size = Size.units map.sectorCount 8)
    (quiet : ∀ s ∈ extent.data, K s) (store : Store) :
    ∃ ws : Writes, Settles n store K (map.store file) (.ok ()) ws ∧
      (∀ w ∈ ws, w.1 ∈ extent.data) ∧
      ((store.after ws).bytes extent.data).take extent.size = map.toBytes := by
  have length : file.length = extent.size := by
    rw [File.length, same]
    rfl
  rw [← length] at size ⊢
  exact FreeMap.settles_store (addresses same lt) size quiet store

/-- Storing a table in a directory writes to its data sectors. It cannot fail. -/
theorem settles_table {dir : Directory} (capacity : dir.capacity = directoryCapacity)
    (size : extent.size = directoryCapacity * slotSize) (store : Store) :
    ∃ ws : Writes, Settles n store K (dir.store file) (.ok ()) ws ∧
      (∀ w ∈ ws, w.1 ∈ extent.data) ∧
      (store.after ws).bytes extent.data = dir.toBytes := by
  have length : file.length = dir.capacity * slotSize := by
    rw [File.length, same, capacity]
    exact size
  have whole : dir.capacity * slotSize % sectorSize = 0 := by
    rw [capacity]
    rfl
  obtain ⟨ws, runs, targets, after⟩ :=
    Directory.settles_store (addresses same lt) (Nat.le_of_eq length.symm) whole store
  rw [capacity, take_bytes _ size] at after
  exact ⟨ws, runs, targets, after⟩

end Storing

end Extent

/-- The node is on disk, its header at `s`, and a directory with its table. -/
structure Node.StoredAt (node : Node) (store : Store) (s : Nat) : Prop where
  extent : node.extent.StoredAt store s
  table : ∀ dir, node.table = some dir → store.bytes node.extent.data = dir.toBytes

/-- Writes away from all its sectors leave a node in place. -/
theorem Node.StoredAt.after {node : Node} {store : Store} {s : Nat} {ws : Writes}
    (h : node.StoredAt store s) (away : ∀ w ∈ ws, w.1 ∉ node.extent.owned s) :
    node.StoredAt (store.after ws) s where
  extent := h.extent.after_of_notMem away
  table dir hdir := by
    rw [← h.table dir hdir]
    exact Extent.bytes_after away

/-- The store holds the catalog, and in the free map's file a map that is true to it. -/
structure Catalog.LaidOut (c : Catalog) (n : Nat) (store : Store) (map : FreeMap) : Prop where
  small : n ≤ diskLimit
  valid : c.Valid n
  stored : ∀ s node, c s = some node → node.StoredAt store s
  count : map.sectorCount = n
  uses : ∀ i, map.Uses i ↔ c.Owns i
  map_bytes : ∀ extent, c freeMapSector = some ⟨extent, none⟩ →
    (store.bytes extent.data).take extent.size = map.toBytes

/-- The descriptor under a number, if it is open. -/
def Volume.under (volume : Volume) (id : Nat) : Option Descriptor := volume.descriptors.lookup id

/-- The system files and the descriptors of the volume are those of nodes. -/
structure Volume.Over (volume : Volume) (c : Catalog) (n : Nat) : Prop where
  count : volume.sectorCount = n
  mapFile : ∃ extent, c freeMapSector = some ⟨extent, none⟩ ∧
    volume.mapFile = ⟨freeMapSector, extent.header, 0⟩
  rootFile : ∃ extent dir, c rootSector = some ⟨extent, some dir⟩ ∧
    volume.rootFile = ⟨rootSector, extent.header, 0⟩
  descriptors : ∀ id d, volume.under id = some d →
    d.file.sector ≠ freeMapSector ∧ d.file.position < Size.limit ∧
      ∃ node, c d.file.sector = some node ∧ d.file.header = node.extent.header ∧
        node.table.isSome = d.isDirectory
  ids : ∀ id d, volume.under id = some d → id < volume.nextId

namespace Catalog.LaidOut

variable {c : Catalog} {n : Nat} {store : Store} {map : FreeMap} {volume : Volume}
variable (l : c.LaidOut n store map)
include l

theorem lt_of_mem {s : Nat} {node : Node} (h : c s = some node) {i : Nat}
    (hi : i ∈ node.extent.sectors) : i < n := l.valid.lt i (owns_sector h hi)

/-! ## Loading -/

theorem addresses {s : Nat} {node : Node} (h : c s = some node) (file : File)
    (hf : file.header = node.extent.header) : file.Addresses n node.extent.data :=
  Extent.addresses hf fun _ => l.lt_of_mem h

theorem runs_file {s : Nat} {node : Node} (h : c s = some node) :
    Runs n store (File.load s) (.ok ⟨s, node.extent.header, 0⟩) [] :=
  Extent.runs_file (fun i hi => l.valid.lt i ⟨s, node, h, hi⟩) (l.stored s node h).extent

/-- A file under the header of a directory loads as its table. -/
theorem runs_table {s : Nat} {extent : Extent} {dir : Directory} (h : c s = some ⟨extent, some dir⟩)
    (file : File) (hf : file.header = extent.header) :
    Runs n store (Directory.load file) (.ok dir) [] := by
  obtain ⟨-, capacity, size⟩ := l.valid.directory s extent dir h
  have length : file.length = directoryCapacity * slotSize := by
    rw [File.length, hf]
    exact size
  have holds := (l.stored s _ h).table dir rfl
  apply Directory.runs_load (l.addresses h file hf)
  · rw [length, capacity, Nat.mul_div_cancel _ (by decide)]
  · rw [length]
    decide
  · rw [holds, ← Directory.length_toBytes, List.take_length]

theorem runs_loadDirectory (known : volume.Over c n) {s : Nat} {dir : Directory}
    (h : c.table? s = some dir) :
    ∃ extent file, c s = some ⟨extent, some dir⟩ ∧ file.header = extent.header ∧
      Runs n store (volume.loadDirectory s) (.ok (file, dir)) [] := by
  obtain ⟨extent, hs⟩ := table?_eq_some_iff.mp h
  unfold Volume.loadDirectory
  by_cases root : s = rootSector
  · subst root
    obtain ⟨extent', dir', hroot, hfile⟩ := known.rootFile
    obtain rfl := extent_unique hs hroot
    refine ⟨extent, volume.rootFile, hs, by rw [hfile], ?_⟩
    rw [if_pos rfl]
    refine .andThen (.done _) (.andThen (l.runs_table hs _ ?_) (.done _))
    rw [hfile]
  · refine ⟨extent, ⟨s, extent.header, 0⟩, hs, rfl, ?_⟩
    rw [if_neg root]
    exact .andThen (l.runs_file hs) (.andThen (l.runs_table hs _ rfl) (.done _))

/-- A file under the header of the free map loads as the map. -/
theorem scans_map {extent : Extent} (hmap : c freeMapSector = some ⟨extent, none⟩) (file : File)
    (hf : file.header = extent.header) :
    Scans n store (· ∈ extent.data) (FreeMap.load file n) (.ok map) := by
  have limit : map.sectorCount + 64 < Size.limit := by
    have := l.small
    rw [l.count]
    simp only [diskLimit, Size.limit] at *
    omega
  have holds : (store.bytes extent.data).take file.length = map.toBytes := by
    rw [File.length, hf]
    exact l.map_bytes extent hmap
  have full : extent.data.length = Size.units file.length sectorSize := by
    rw [File.length, hf]
    exact extent.length_data
  have load := FreeMap.scans_load (l.addresses hmap file hf) limit holds full
  rw [l.count] at load
  exact load

theorem scans_loadMap (known : volume.Over c n) {extent : Extent}
    (hmap : c freeMapSector = some ⟨extent, none⟩) :
    Scans n store (· ∈ extent.data) volume.loadMap (.ok map) := by
  obtain ⟨extent', hmap', hfile⟩ := known.mapFile
  obtain rfl := extent_unique hmap hmap'
  rw [Volume.loadMap, known.count]
  exact l.scans_map hmap volume.mapFile (by rw [hfile])

theorem runs_loadMap (known : volume.Over c n) : Runs n store volume.loadMap (.ok map) [] := by
  obtain ⟨extent, hmap, -⟩ := known.mapFile
  exact (l.scans_loadMap known hmap).runs

/-! ## Writing -/

/-- Storing a map of the volume's size writes to the data sectors of its file. When they were read
before, it cannot fail. -/
theorem settles_storeMap {K : Nat → Prop} (known : volume.Over c n) {extent : Extent}
    (hmap : c freeMapSector = some ⟨extent, none⟩) (quiet : ∀ s ∈ extent.data, K s)
    {map' : FreeMap} (count : map'.sectorCount = n) (store : Store) :
    ∃ ws : Writes, Settles n store K (volume.storeMap map') (.ok ()) ws ∧
      (∀ w ∈ ws, w.1 ∈ extent.data) ∧
      ((store.after ws).bytes extent.data).take extent.size = map'.toBytes := by
  obtain ⟨extent', hmap', hfile⟩ := known.mapFile
  obtain ⟨extent'', hmap'', size⟩ := l.valid.map
  obtain rfl := extent_unique hmap hmap'
  obtain rfl := extent_unique hmap hmap''
  have same : volume.mapFile.header = extent.header := by rw [hfile]
  rw [← count] at size
  exact Extent.settles_map same (fun _ => l.lt_of_mem hmap) size quiet store

/-- Storing a table of the right capacity writes to the data sectors of its directory. It cannot
fail. -/
theorem settles_storeTable {K : Nat → Prop} {s : Nat} {extent : Extent} {old dir : Directory}
    (h : c s = some ⟨extent, some old⟩) (capacity : dir.capacity = old.capacity) {file : File}
    (hf : file.header = extent.header) (store : Store) :
    ∃ ws : Writes, Settles n store K (dir.store file) (.ok ()) ws ∧
      (∀ w ∈ ws, w.1 ∈ extent.data) ∧
      (store.after ws).bytes extent.data = dir.toBytes := by
  obtain ⟨-, capacity', size⟩ := l.valid.directory s extent old h
  exact Extent.settles_table hf (fun _ => l.lt_of_mem h) (capacity.trans capacity') size store

/-- The data sectors of a node belong to no other. -/
theorem notMem_of_mem_data {s t i : Nat} {a b : Node} (ha : c s = some a) (hb : c t = some b)
    (ne : s ≠ t) (hi : i ∈ a.extent.data) : i ∉ b.extent.owned t := fun hm =>
  ne (l.valid.disjoint s t a b i ha hb (Extent.mem_owned_of_mem_data hi) hm)

/-- Writes to the data of one node leave the data of every other alone. -/
theorem bytes_after_data {s t : Nat} {a b : Node} (ha : c s = some a) (hb : c t = some b)
    (ne : s ≠ t) {ws : Writes} (targets : ∀ w ∈ ws, w.1 ∈ a.extent.data) (store : Store) :
    (store.after ws).bytes b.extent.data = store.bytes b.extent.data :=
  Extent.bytes_after fun w hw => l.notMem_of_mem_data ha hb ne (targets w hw)

/-- Data sectors are neither header sectors nor index blocks. -/
theorem away_of_mem_data {s t i : Nat} {a b : Node} (ha : c s = some a) (hb : c t = some b)
    (hi : i ∈ a.extent.data) : i ≠ t ∧ i ∉ b.extent.index := by
  by_cases same : s = t
  · subst same
    rw [ha, Option.some.injEq] at hb
    subst hb
    constructor
    · rintro rfl
      exact l.valid.apart _ a ha (a.extent.mem_sectors.mpr (.inr hi))
    · intro hm
      exact a.extent.notMem_data_of_mem_index hm hi
  · have other := l.notMem_of_mem_data ha hb same hi
    constructor
    · rintro rfl
      exact other List.mem_cons_self
    · intro hm
      exact other (Extent.mem_owned_of_mem_index hm)

/-- Writing into one file keeps the layout. -/
theorem write_data {s : Nat} {extent : Extent} (h : c s = some ⟨extent, none⟩)
    (ne : s ≠ freeMapSector) {ws : Writes} (targets : ∀ w ∈ ws, w.1 ∈ extent.data) :
    c.LaidOut n (store.after ws) map where
  small := l.small
  valid := l.valid
  stored t node ht := by
    have stored := l.stored t node ht
    constructor
    · exact stored.extent.after fun w hw => l.away_of_mem_data h ht (targets w hw)
    · intro dir hdir
      have other : s ≠ t := by
        rintro rfl
        rw [h, Option.some.injEq] at ht
        subst ht
        cases hdir
      rw [← stored.table dir hdir]
      exact l.bytes_after_data h ht other targets store
  count := l.count
  uses := l.uses
  map_bytes extent' hmap := by
    rw [← l.map_bytes extent' hmap, l.bytes_after_data h hmap ne targets store]

/-- Writing to sectors without an owner keeps the layout. -/
theorem write_free {ws : Writes} (free : ∀ w ∈ ws, ¬ c.Owns w.1) :
    c.LaidOut n (store.after ws) map where
  small := l.small
  valid := l.valid
  stored t node ht := (l.stored t node ht).after fun w hw hm => free w hw ⟨t, node, ht, hm⟩
  count := l.count
  uses := l.uses
  map_bytes extent hmap := by
    rw [← l.map_bytes extent hmap,
      Store.bytes_after fun w hw hm => free w hw (owns_data hmap hm)]

end Catalog.LaidOut

end SectorFS
