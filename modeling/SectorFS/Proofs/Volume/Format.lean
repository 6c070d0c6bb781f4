import SectorFS.Proofs.Volume.LaidOut
import SectorFS.Proofs.Volume.Namespace
import SectorFS.Volume.Format
import SectorFS.Volume.Mount

/-!
# Formatting and mounting

From fifteen sectors on there is room for the system files, and formatting lays out a catalog of
these two alone, whatever the disk held before: `runs_format`. It writes both headers
(`runs_storeHeaders`) and then what the files hold (`runs_storeContents`). Mounting finds the
system files of any catalog and writes nothing: `runs_mount`.
-/

namespace SectorFS

/-- Extents for the system files of a disk of `n` sectors, apart from each other and from the header
sectors of both. -/
structure SystemExtents (n : Nat) (mapExtent rootExtent : Extent) : Prop where
  mapSize : mapExtent.size = Size.units n 8
  rootSize : rootExtent.size = directoryCapacity * slotSize
  nodup : (mapExtent.owned freeMapSector ++ rootExtent.owned rootSector).Nodup
  lt : ∀ s ∈ mapExtent.owned freeMapSector ++ rootExtent.owned rootSector, s < n

namespace SystemLayout

variable {map : FreeMap} {k size : Nat}

/-- A system file takes the sectors behind those that are used, when they are enough. -/
theorem place_ok (sectors : Nat) (part : SystemPart) (full : map.FullBelow k)
    (small : map.sectorCount ≤ diskLimit) (room : k + Extent.span size ≤ map.sectorCount)
    (fits : size + sectorSize < Size.limit) :
    ∃ (extent : Extent) (map' : FreeMap), place sectors part map size = .ok (extent.header, map') ∧
      extent.size = size ∧ extent.sectors = List.range' k (Extent.span size) ∧
      map'.sectorCount = map.sectorCount ∧ map'.FullBelow (k + Extent.span size) := by
  have count := full.freeCount_eq
  have enough : ¬ map.freeCount < Extent.span size := by omega
  have allocated : Header.empty.allocate map size = _ := Header.allocate_empty fits
  rw [if_neg enough] at allocated
  obtain ⟨extent, header, extentSize, taken, takes⟩ := Header.exists_extent small allocated
  have split : List.range' k (map.sectorCount - k) = List.range' k (Extent.span size) ++
      List.range' (k + Extent.span size) (map.sectorCount - k - Extent.span size) := by
    rw [List.range'_append_1]
    congr 1
    omega
  have lowest : extent.sectors = List.range' k (Extent.span size) := by
    rw [taken, full.sectorsWhere_false, split, List.take_left' List.length_range']
  refine ⟨extent, _, ?_, extentSize, lowest, takes.sectorCount_eq, fun s => ?_⟩
  · rw [place, allocated, ← header]
  · rw [takes.uses, lowest, List.mem_range'_1, full]
    omega

/-- Without that many sectors the disk is too small. -/
theorem place_error (sectors : Nat) (part : SystemPart) (full : map.FullBelow k)
    (short : map.sectorCount < k + Extent.span size) (fits : size + sectorSize < Size.limit) :
    place sectors part map size = .error (.fault (.diskTooSmall sectors part)) := by
  have count := full.freeCount_eq
  have le := full.le
  rw [place, Header.allocate_empty fits, if_pos (by omega)]

/-- The map in which the two header sectors are used and no other. -/
def headers (n : Nat) : FreeMap :=
  ((⟨.replicate n false⟩ : FreeMap).mark freeMapSector true).mark rootSector true

theorem sectorCount_headers (n : Nat) : (headers n).sectorCount = n := by
  unfold headers
  rw [FreeMap.sectorCount_mark, FreeMap.sectorCount_mark]
  exact Array.size_replicate

theorem fullBelow_headers {n : Nat} (two : 2 ≤ n) : (headers n).FullBelow 2 := by
  intro s
  have unused : ¬ (⟨.replicate n false⟩ : FreeMap).Uses s := by
    intro used
    have := (Array.getElem?_eq_some_iff.mp used).2
    simp at this
  have count : (⟨.replicate n false⟩ : FreeMap).sectorCount = n := Array.size_replicate
  unfold headers
  rw [FreeMap.uses_mark_true, FreeMap.uses_mark_true]
  · simp only [unused, or_false, rootSector, freeMapSector]
    omega
  · rw [count]
    exact Nat.zero_lt_of_lt two
  · rw [FreeMap.sectorCount_mark, count]
    exact two

/-- Marking the header sectors of a new map. -/
theorem reserve_headers {n : Nat} (limit : n + 64 < Size.limit) (two : 2 ≤ n) :
    ∃ blank marked, FreeMap.new n = .ok blank ∧ blank.reserve freeMapSector = .ok marked ∧
      marked.reserve rootSector = .ok (headers n) := by
  have count : (⟨.replicate n false⟩ : FreeMap).sectorCount = n := Array.size_replicate
  refine ⟨⟨.replicate n false⟩, _, ?_, if_pos ?_, if_pos ?_⟩
  · rw [FreeMap.new, FreeMap.checkCount_of_lt limit]
    rfl
  · rw [count]
    exact Nat.zero_lt_of_lt two
  · rw [FreeMap.sectorCount_mark, count]
    exact two

/-- Once the header sectors are marked, the free map is placed and then the root directory. -/
theorem plan_eq {n : Nat} (limit : n + 64 < Size.limit) (two : 2 ≤ n) :
    plan n = do
      let (mapHeader, map) ← place n .freeMap (headers n) (Size.units n 8)
      let (rootHeader, map) ← place n .rootDirectory map (directoryCapacity * slotSize)
      return ⟨map, mapHeader, rootHeader⟩ := by
  obtain ⟨blank, marked, made, first, second⟩ := reserve_headers limit two
  rw [plan, if_neg (show ¬ n ≤ rootSector from Nat.not_le.mpr two), made]
  simp only [bind, Except.bind, first, second, FreeMap.storedLength,
    Size.ceilDiv_of_lt (show n + 8 < Size.limit by omega), Directory.fileSize_capacity]

/-- How many sectors the system files of a disk of `n` sectors take: thirteen for both headers and
the root directory, the others for the free map. -/
def used (n : Nat) : Nat :=
  let m := Size.units (Size.units n 8) sectorSize
  13 + m + Size.units m slotsPerBlock

theorem span_root : Extent.span (directoryCapacity * slotSize) = 11 := by decide

theorem used_eq (n : Nat) : used n = 2 + Extent.span (Size.units n 8) + 11 := by
  simp only [used, Extent.span]
  omega

/-- Fifteen sectors are what both system files and their headers take on a small disk, and on a
larger one the free map grows slower than the disk. -/
theorem used_le {n : Nat} (large : 15 ≤ n) (small : n ≤ diskLimit) : used n ≤ n := by
  simp only [used, Size.units, sectorSize, slotsPerBlock, diskLimit] at *
  omega

theorem limit_of_small {n : Nat} (small : n ≤ diskLimit) :
    n + 64 < Size.limit ∧ Size.units n 8 + sectorSize < Size.limit := by
  simp only [Size.units, sectorSize, Size.limit, diskLimit] at *
  omega

/-- Sectors that are the first of the disk do not repeat and lie on it. -/
theorem systemExtents_of_perm {n : Nat} {mapExtent rootExtent : Extent} (enough : used n ≤ n)
    (mapSize : mapExtent.size = Size.units n 8)
    (rootSize : rootExtent.size = directoryCapacity * slotSize)
    (perm : (mapExtent.owned freeMapSector ++ rootExtent.owned rootSector).Perm
      (List.range (used n))) : SystemExtents n mapExtent rootExtent where
  mapSize := mapSize
  rootSize := rootSize
  nodup := perm.nodup_iff.mpr List.nodup_range
  lt _ hs := Nat.lt_of_lt_of_le (List.mem_range.mp (perm.mem_iff.mp hs)) enough

/-- From fifteen sectors on, the free map and the root directory follow the two header sectors. -/
theorem plan_ok {n : Nat} (large : 15 ≤ n) (small : n ≤ diskLimit) :
    ∃ (map : FreeMap) (mapExtent rootExtent : Extent),
      plan n = .ok ⟨map, mapExtent.header, rootExtent.header⟩ ∧
      mapExtent.size = Size.units n 8 ∧ rootExtent.size = directoryCapacity * slotSize ∧
      map.sectorCount = n ∧ map.FullBelow (used n) ∧
      (mapExtent.owned freeMapSector ++ rootExtent.owned rootSector).Perm
        (List.range (used n)) := by
  obtain ⟨limit, fits⟩ := limit_of_small small
  have two : 2 ≤ n := by omega
  have enough := used_le large small
  rw [used_eq] at enough ⊢
  have count := sectorCount_headers n
  obtain ⟨mapExtent, map₁, placeMap, mapSize, mapSectors, count₁, full₁⟩ :=
    place_ok n .freeMap (fullBelow_headers two) (by omega) (by omega) fits
  obtain ⟨rootExtent, map₂, placeRoot, rootSize, rootSectors, count₂, full₂⟩ :=
    place_ok n .rootDirectory full₁ (by omega) (by rw [span_root]; omega)
      (show directoryCapacity * slotSize + _ < _ by decide)
  rw [span_root] at rootSectors full₂
  refine ⟨map₂, mapExtent, rootExtent, ?_, mapSize, rootSize, by omega, full₂, ?_⟩
  · rw [plan_eq limit two, placeMap]
    simp only [bind, Except.bind, placeRoot]
    rfl
  · generalize Extent.span (Size.units n 8) = span at mapSectors rootSectors ⊢
    rw [Extent.owned, Extent.owned, mapSectors, rootSectors]
    calc freeMapSector :: List.range' 2 span ++ rootSector :: List.range' (2 + span) 11
        _ |>.Perm (freeMapSector :: rootSector ::
            (List.range' 2 span ++ List.range' (2 + span) 11)) := .cons _ List.perm_middle
        _ = List.range (2 + span + 11) := by
          rw [List.range'_append_1, List.range_eq_range', Nat.add_assoc, Nat.add_comm 2,
            List.range'_succ, List.range'_succ]
          rfl

/-- Below that, one of them finds too few sectors. -/
theorem plan_error {n : Nat} (few : n < 15) :
    ∃ part, plan n = .error (.fault (.diskTooSmall n part)) := by
  by_cases two : 2 ≤ n
  · have small : n ≤ diskLimit := by
      simp only [diskLimit]
      omega
    obtain ⟨limit, fits⟩ := limit_of_small small
    have count := sectorCount_headers n
    have span : Extent.span (Size.units n 8) = 2 := by
      simp only [Extent.span, Size.units, sectorSize, slotsPerBlock]
      omega
    by_cases four : 4 ≤ n
    · obtain ⟨mapExtent, map₁, placeMap, -, -, count₁, full₁⟩ :=
        place_ok n .freeMap (fullBelow_headers two) (by omega) (by omega) fits
      have placeRoot := place_error n .rootDirectory full₁
        (show _ < _ + Extent.span (directoryCapacity * slotSize) by rw [span_root]; omega)
        (show directoryCapacity * slotSize + _ < _ by decide)
      refine ⟨.rootDirectory, ?_⟩
      rw [plan_eq limit two, placeMap]
      simp only [bind, Except.bind, placeRoot]
    · have placeMap := place_error n .freeMap (fullBelow_headers two) (by omega) fits
      refine ⟨.freeMap, ?_⟩
      rw [plan_eq limit two, placeMap]
      rfl
  · refine ⟨.headers, ?_⟩
    rw [plan, if_pos (show n ≤ rootSector from Nat.not_lt.mp two)]
    rfl

end SystemLayout

namespace SystemExtents

variable {n : Nat} {mapExtent rootExtent : Extent} (e : SystemExtents n mapExtent rootExtent)
include e

theorem map_lt : ∀ s ∈ mapExtent.owned freeMapSector, s < n := fun s hs =>
  e.lt s (List.mem_append.mpr (.inl hs))

theorem root_lt : ∀ s ∈ rootExtent.owned rootSector, s < n := fun s hs =>
  e.lt s (List.mem_append.mpr (.inr hs))

theorem map_apart : freeMapSector ∉ mapExtent.sectors :=
  (List.nodup_cons.mp (List.nodup_append.mp e.nodup).1).1

theorem root_apart : rootSector ∉ rootExtent.sectors :=
  (List.nodup_cons.mp (List.nodup_append.mp e.nodup).2.1).1

theorem notMem_root {s : Nat} (hs : s ∈ mapExtent.owned freeMapSector) :
    s ∉ rootExtent.owned rootSector := fun hm =>
  (List.nodup_append.mp e.nodup).2.2 s hs s hm rfl

end SystemExtents

namespace Catalog

variable {n : Nat} {store : Store} {map : FreeMap} {c : Catalog}

/-- The free map and an empty root directory, and nothing else. -/
def initial (mapExtent rootExtent : Extent) : Catalog := fun s =>
  if s = freeMapSector then some ⟨mapExtent, none⟩
  else if s = rootSector then some ⟨rootExtent, some (.new directoryCapacity)⟩
  else none

section Initial

variable {mapExtent rootExtent : Extent}

theorem initial_map : initial mapExtent rootExtent freeMapSector = some ⟨mapExtent, none⟩ := rfl

theorem initial_root : initial mapExtent rootExtent rootSector =
    some ⟨rootExtent, some (.new directoryCapacity)⟩ := rfl

theorem initial_cases {s : Nat} {node : Node} (h : initial mapExtent rootExtent s = some node) :
    s = freeMapSector ∧ node = ⟨mapExtent, none⟩ ∨
    s = rootSector ∧ node = ⟨rootExtent, some (.new directoryCapacity)⟩ := by
  rw [initial] at h
  split at h
  · rename_i hs
    exact .inl ⟨hs, (Option.some.inj h).symm⟩
  · split at h
    · rename_i hs
      exact .inr ⟨hs, (Option.some.inj h).symm⟩
    · cases h

theorem owns_initial {i : Nat} : (initial mapExtent rootExtent).Owns i ↔
    i ∈ mapExtent.owned freeMapSector ++ rootExtent.owned rootSector := by
  rw [List.mem_append]
  constructor
  · rintro ⟨s, node, hs, hi⟩
    rcases initial_cases hs with ⟨rfl, rfl⟩ | ⟨rfl, rfl⟩
    · exact .inl hi
    · exact .inr hi
  · rintro (hi | hi)
    · exact ⟨_, _, initial_map, hi⟩
    · exact ⟨_, _, initial_root, hi⟩

theorem table?_initial {p : Nat} {dir : Directory}
    (h : (initial mapExtent rootExtent).table? p = some dir) : dir = .new directoryCapacity := by
  obtain ⟨extent, hp⟩ := table?_eq_some_iff.mp h
  rcases initial_cases hp with ⟨-, hnode⟩ | ⟨-, hnode⟩
  · cases hnode
  · obtain ⟨-, htable⟩ := Node.mk.inj hnode
    exact Option.some.inj htable

theorem held?_initial (p i : Nat) : (initial mapExtent rootExtent).held? p i = none := by
  unfold held?
  cases h : (initial mapExtent rootExtent).table? p with
  | none => rfl
  | some dir =>
    rw [table?_initial h, Option.bind_some]
    exact Directory.held_new _ _

theorem child?_initial (p : Nat) (name : String) :
    (initial mapExtent rootExtent).child? p name = none := by
  unfold child?
  cases h : (initial mapExtent rootExtent).table? p with
  | none => rfl
  | some dir =>
    rw [table?_initial h, Option.bind_some]
    exact Directory.lookup?_new _ _

/-- Nothing can be found but the root. -/
theorem toNamespace_initial : (initial mapExtent rootExtent).toNamespace = Namespace.bare := by
  funext path
  cases path using List.reverseRecOn with
  | nil =>
    rw [toNamespace_of_find? find?_nil initial_root]
    exact congrArg some (congrArg Item.directory (Directory.labels_new _))
  | append_singleton path name =>
    have lost : (initial mapExtent rootExtent).find? (path ++ [name]) = none := by
      cases h : (initial mapExtent rootExtent).find? path with
      | none => exact find?_append_eq_none [name] h
      | some p => exact find?_concat_eq_none h (child?_initial p name)
    rw [toNamespace_eq_none_of_find? lost]
    exact (if_neg (by simp)).symm

theorem initial_valid (e : SystemExtents n mapExtent rootExtent) :
    (initial mapExtent rootExtent).Valid n where
  map := ⟨mapExtent, initial_map, e.mapSize⟩
  root := ⟨_, table?_eq_some_iff.mpr ⟨rootExtent, initial_root⟩⟩
  directory s extent dir h := by
    rcases initial_cases h with ⟨-, hnode⟩ | ⟨-, hnode⟩
    · cases hnode
    · obtain ⟨rfl, htable⟩ := Node.mk.inj hnode
      obtain rfl := Option.some.inj htable
      exact ⟨Directory.tidy_new _, Directory.capacity_new _, e.rootSize⟩
  apart s node h := by
    rcases initial_cases h with ⟨rfl, rfl⟩ | ⟨rfl, rfl⟩
    · exact e.map_apart
    · exact e.root_apart
  lt i h := e.lt i (owns_initial.mp h)
  disjoint s t a b i hs ht hi hj := by
    rcases initial_cases hs with ⟨rfl, rfl⟩ | ⟨rfl, rfl⟩ <;>
      rcases initial_cases ht with ⟨rfl, rfl⟩ | ⟨rfl, rfl⟩
    · rfl
    · exact absurd hj (e.notMem_root hi)
    · exact absurd hi (e.notMem_root hj)
    · rfl
  child p i e h := by
    rw [held?_initial] at h
    cases h
  single p q i j e f he := by
    rw [held?_initial] at he
    cases he
  reached s node h := by
    rcases initial_cases h with ⟨rfl, -⟩ | ⟨rfl, -⟩
    · exact .inl rfl
    · exact .inr ⟨[], find?_nil⟩

section Layout

variable (e : SystemExtents n mapExtent rootExtent)
include e

/-- Both system files on disk, with a map that is true to them, are an empty volume. -/
theorem laidOut_initial (small : n ≤ diskLimit)
    (mapStored : mapExtent.StoredAt store freeMapSector)
    (mapBytes : (store.bytes mapExtent.data).take mapExtent.size = map.toBytes)
    (rootStored : rootExtent.StoredAt store rootSector)
    (rootBytes : store.bytes rootExtent.data = (Directory.new directoryCapacity).toBytes)
    (count : map.sectorCount = n)
    (uses : ∀ i, map.Uses i ↔ (initial mapExtent rootExtent).Owns i) :
    (initial mapExtent rootExtent).LaidOut n store map where
  small := small
  valid := initial_valid e
  stored s node h := by
    rcases initial_cases h with ⟨rfl, rfl⟩ | ⟨rfl, rfl⟩
    · exact ⟨mapStored, nofun⟩
    · refine ⟨rootStored, fun dir hdir => ?_⟩
      obtain rfl := Option.some.inj hdir
      exact rootBytes
  count := count
  uses := uses
  map_bytes extent hmap := by
    obtain rfl := extent_unique initial_map hmap
    exact mapBytes

/-- Storing both headers puts both extents in place. -/
theorem runs_storeHeaders (store : Store) :
    ∃ ws vs : Writes, Runs n store (mapExtent.header.store freeMapSector) (.ok ()) ws ∧
      Runs n (store.after ws) (rootExtent.header.store rootSector) (.ok ()) vs ∧
      mapExtent.StoredAt ((store.after ws).after vs) freeMapSector ∧
      rootExtent.StoredAt ((store.after ws).after vs) rootSector ∧
      ∀ w ∈ ws ++ vs, (initial mapExtent rootExtent).Owns w.1 := by
  obtain ⟨ws, runMap, mapStored, mapTargets⟩ :=
    Extent.settles_header (K := fun _ => True) e.map_apart e.map_lt store
  obtain ⟨vs, runRoot, rootStored, rootTargets⟩ :=
    Extent.settles_header (K := fun _ => True) e.root_apart e.root_lt (store.after ws)
  have spared : ∀ w ∈ vs, w.1 ∉ mapExtent.owned freeMapSector :=
    fun w hw hm => e.notMem_root hm (rootTargets w hw).1
  refine ⟨ws, vs, runMap.runs, runRoot.runs, mapStored.after_of_notMem spared, rootStored, ?_⟩
  intro w hw
  rcases List.mem_append.mp hw with hw | hw
  · exact ⟨_, _, initial_map, (mapTargets w hw).1⟩
  · exact ⟨_, _, initial_root, (rootTargets w hw).1⟩

/-- With both headers in place, storing a map that is true to them and an empty table makes an empty
volume. -/
theorem runs_storeContents (small : n ≤ diskLimit)
    (mapStored : mapExtent.StoredAt store freeMapSector)
    (rootStored : rootExtent.StoredAt store rootSector) (count : map.sectorCount = n)
    (uses : ∀ i, map.Uses i ↔ (initial mapExtent rootExtent).Owns i) :
    ∃ ws vs : Writes,
      Runs n store (map.store ⟨freeMapSector, mapExtent.header, 0⟩) (.ok ()) ws ∧
      Runs n (store.after ws)
        ((Directory.new directoryCapacity).store ⟨rootSector, rootExtent.header, 0⟩) (.ok ()) vs ∧
      (initial mapExtent rootExtent).LaidOut n ((store.after ws).after vs) map ∧
      ∀ w ∈ ws ++ vs, (initial mapExtent rootExtent).Owns w.1 := by
  let mapFile : File := ⟨freeMapSector, mapExtent.header, 0⟩
  let rootFile : File := ⟨rootSector, rootExtent.header, 0⟩
  have mapSame : mapFile.header = mapExtent.header := rfl
  have rootSame : rootFile.header = rootExtent.header := rfl
  have mapSize : mapExtent.size = Size.units map.sectorCount 8 := by rw [count, e.mapSize]
  obtain ⟨ws, runMap, mapData, mapBytes⟩ :=
    Extent.settles_map (K := fun _ => True) mapSame
      (fun s hs => e.map_lt s (List.mem_cons_of_mem _ hs)) mapSize (fun _ _ => trivial) store
  obtain ⟨vs, runRoot, rootData, rootBytes⟩ :=
    Extent.settles_table (K := fun _ => True) rootSame
      (fun s hs => e.root_lt s (List.mem_cons_of_mem _ hs)) (Directory.capacity_new _) e.rootSize
      (store.after ws)
  -- Each of the two groups of writes stays in the data of one file and spares all of the other.
  have mapSpared : ∀ w ∈ vs, w.1 ∉ mapExtent.owned freeMapSector :=
    fun w hw hm => e.notMem_root hm (Extent.mem_owned_of_mem_data (rootData w hw))
  have rootSpared : ∀ w ∈ ws, w.1 ∉ rootExtent.owned rootSector :=
    fun w hw => e.notMem_root (Extent.mem_owned_of_mem_data (mapData w hw))
  refine ⟨ws, vs, runMap.runs, runRoot.runs, ?_, ?_⟩
  · apply laidOut_initial e small _ _ _ rootBytes count uses
    · exact (mapStored.after_of_data e.map_apart mapData).after_of_notMem mapSpared
    · rw [Extent.bytes_after mapSpared]
      exact mapBytes
    · exact (rootStored.after_of_notMem rootSpared).after_of_data e.root_apart rootData
  · intro w hw
    rcases List.mem_append.mp hw with hw | hw
    · exact owns_data initial_map (mapData w hw)
    · exact owns_data initial_root (rootData w hw)

end Layout

end Initial

/-- A volume without descriptors is over every catalog with its system files. -/
theorem over_ofSystemFiles {mapExtent rootExtent : Extent} {dir : Directory}
    (hmap : c freeMapSector = some ⟨mapExtent, none⟩)
    (hroot : c rootSector = some ⟨rootExtent, some dir⟩) :
    (Volume.ofSystemFiles n ⟨freeMapSector, mapExtent.header, 0⟩
      ⟨rootSector, rootExtent.header, 0⟩).Over c n where
  count := rfl
  mapFile := ⟨mapExtent, hmap, rfl⟩
  rootFile := ⟨rootExtent, dir, hroot, rfl⟩
  descriptors id d hd := by cases hd
  ids id d hd := by cases hd

/-- Formatting writes the two headers, then the map and the root directory, all of it to the first
sectors of the disk, which the system files take up. -/
theorem runs_format (large : 15 ≤ n) (small : n ≤ diskLimit) (store : Store) :
    ∃ (ws : Writes) (map : FreeMap) (mapExtent rootExtent : Extent),
      Runs n store Volume.format (.ok (.ofSystemFiles n ⟨freeMapSector, mapExtent.header, 0⟩
        ⟨rootSector, rootExtent.header, 0⟩)) ws ∧
      (∀ w ∈ ws, w.1 < SystemLayout.used n) ∧
      (initial mapExtent rootExtent).LaidOut n (store.after ws) map ∧
      map.FullBelow (SystemLayout.used n) ∧
      (mapExtent.owned freeMapSector ++ rootExtent.owned rootSector).Perm
        (List.range (SystemLayout.used n)) := by
  obtain ⟨map, mapExtent, rootExtent, plan, mapSize, rootSize, count, full, perm⟩ :=
    SystemLayout.plan_ok large small
  have e := SystemLayout.systemExtents_of_perm (SystemLayout.used_le large small) mapSize rootSize
    perm
  have below (s : Nat) : (initial mapExtent rootExtent).Owns s ↔ s < SystemLayout.used n := by
    rw [owns_initial, perm.mem_iff, List.mem_range]
  obtain ⟨ws, vs, runMapHeader, runRootHeader, mapStored, rootStored, headers⟩ :=
    runs_storeHeaders e store
  obtain ⟨us, xs, runMap, runRoot, l, contents⟩ :=
    runs_storeContents e small mapStored rootStored count fun i => by rw [full, below]
  refine ⟨ws ++ (vs ++ (us ++ xs)), map, mapExtent, rootExtent, ?_, ?_, ?_, full, perm⟩
  · unfold Volume.format
    refine .andThen .count ?_
    rw [plan]
    exact .andThen (.lift _) (.step runMapHeader (.step runRootHeader
      (.andThen (Extent.runs_file e.map_lt mapStored)
      (.andThen (Extent.runs_file e.root_lt rootStored)
      (.step runMap (.finish runRoot (.andThen .sync (.done _))))))))
  · intro w hw
    rw [← List.append_assoc] at hw
    rw [← below]
    rcases List.mem_append.mp hw with hw | hw
    · exact headers w hw
    · exact contents w hw
  · simpa only [Store.after_append] using l

/-- Mounting finds the system files. -/
theorem runs_mount (l : c.LaidOut n store map) :
    ∃ volume, Runs n store Volume.mount (.ok volume) [] ∧ volume.Over c n ∧
      volume.descriptors = [] ∧ volume.nextId = 1 := by
  obtain ⟨mapExtent, hmap, mapSize⟩ := l.valid.map
  obtain ⟨dir, hdir⟩ := l.valid.root
  obtain ⟨rootExtent, hroot⟩ := table?_eq_some_iff.mp hdir
  obtain ⟨-, -, rootSize⟩ := l.valid.directory _ _ _ hroot
  have two := l.valid.lt _ (owns_header hroot)
  refine ⟨_, ?_, over_ofSystemFiles hmap hroot, rfl, rfl⟩
  have limit : n + 8 < Size.limit := by
    have := l.small
    simp only [diskLimit, Size.limit] at *
    omega
  have used : Volume.systemSectorsUsed map = .ok true := by
    have mapUsed : map.Uses freeMapSector := (l.uses _).mpr (owns_header hmap)
    have rootUsed : map.Uses rootSector := (l.uses _).mpr (owns_header hroot)
    rw [Volume.systemSectorsUsed, FreeMap.isUsed_of_lt mapUsed.lt, FreeMap.isUsed_of_lt rootUsed.lt,
      decide_eq_true mapUsed, decide_eq_true rootUsed]
    rfl
  have fine : ¬ (rootExtent.size = 0 ∨ rootExtent.size % slotSize ≠ 0) := by
    rw [rootSize]
    decide
  unfold Volume.mount
  refine .andThen .count (.guardPasses (Nat.not_le.mpr two) (.andThen (l.runs_file hmap)
    (.andThen (l.runs_file hroot) ?_)))
  rw [FreeMap.storedLength, Size.ceilDiv_of_lt limit]
  refine .andThen (.lift _) (.guardPasses (not_not.mpr mapSize) (.guardPasses fine
    (.andThen (l.scans_map hmap _ rfl).runs ?_)))
  rw [used]
  exact .andThen (.lift _) (.guardPasses (by decide) (.done _))

end Catalog

end SectorFS
