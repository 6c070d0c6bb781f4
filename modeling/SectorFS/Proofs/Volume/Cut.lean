import SectorFS.Proofs.Volume.Ownership

/-!
# Calls that are cut short

Reads and writes of a device can fail at any point of a call. A request that makes or removes a node
has then written along its path and nowhere else (`Disk.Contained`): no header, no index block and
no file is hurt. A call that makes a node in a directory that is there writes the table of that
directory before any other sector in use, so until then nothing is changed for anybody.
-/

namespace SectorFS

/-- The path of a request that may make or remove nodes. -/
def Request.changes? : Request → Option String
  | .create path _ => some path
  | .makeDirectory path => some path
  | .openPath path => some path
  | .remove path => some path
  | _ => none

/-- The request makes a node at its path. -/
def Request.makes : Request → Bool
  | .create .. => true
  | .makeDirectory _ => true
  | _ => false

namespace Catalog

open Volume

variable {c : Catalog} {n i s : Nat} {store : Store} {map : FreeMap} {volume : Volume}
variable {path : List String} {K : Nat → Prop}

/-- A request that makes or removes nodes writes along its path. It can fail only where all that
exists is whole, and if the directory of its new node exists, it writes that first. -/
theorem tries_perform (l : c.LaidOut n store map) (known : volume.Over c n) {request : Request}
    {path : String} (h : request.changes? = some path) :
    ∃ result ws, Tries n store K (volume.perform request) result ws
        (c.Stopped n store c.toNamespace [] (Path.parent path)) ∧
      (∀ w ∈ ws, c.Along (Path.parent path) w.1) ∧
      (request.makes = true → ∀ t, c.find? (Path.parent path) = some t → c.TableFirst t ws) := by
  have start : c.Stopped n store c.toNamespace [] (Path.parent path) [] := .here l .root _ nofun
  have nowhere {result} (run : Runs n store (volume.perform request) result []) :
      ∃ result ws, Tries n store K (volume.perform request) result ws
          (c.Stopped n store c.toNamespace [] (Path.parent path)) ∧
        (∀ w ∈ ws, c.Along (Path.parent path) w.1) ∧
        (request.makes = true → ∀ t, c.find? (Path.parent path) = some t → c.TableFirst t ws) :=
    ⟨result, [], .quiet run start, nofun, fun _ t _ => .nil c t⟩
  have back {k : Nat} {ws : Writes} {c' : Catalog} {map' : FreeMap}
      (grew : c.Grew n store c.toNamespace ((Path.parent path).take k) ws c' map') :
      ∀ w ∈ ws, c.Along (Path.parent path) w.1 := fun w hw =>
    (grew.along w hw).mono (List.take_prefix k _)
  cases request with
  | create target size =>
    obtain rfl := Option.some.inj h
    by_cases absolute : Path.Absolute target
    · obtain ⟨ws, c', map', first, ⟨s, extent, run, -, made, -⟩ | ⟨e, k, run, grew, -⟩⟩ :=
        tries_create l known absolute size
      · exact ⟨_, ws, .finish run (.done _), made.along, fun _ => first⟩
      · exact ⟨_, ws, .stop run, back grew, fun _ => first⟩
    · exact nowhere (.stop (.stop (runs_placeFor_relative absolute)))
  | makeDirectory target =>
    obtain rfl := Option.some.inj h
    by_cases absolute : Path.Absolute target
    · obtain ⟨ws, c', map', first, ⟨run, made, -⟩ | ⟨cause, k, run, grew⟩⟩ :=
        tries_makeDirectory l known absolute
      · exact ⟨_, ws, .finish run (.done _), made.along, fun _ => first⟩
      · exact ⟨_, ws, .stop run, back grew, fun _ => first⟩
    · exact nowhere (.stop (.stop (runs_placeFor_relative absolute)))
  | openPath target =>
    obtain rfl := Option.some.inj h
    by_cases absolute : Path.Absolute target
    · rcases tries_openPath l known absolute with ⟨d, run, -⟩ |
        ⟨-, ws, c', map', cause, k, run, grew⟩
      · exact nowhere (.andThen run (.done _))
      · exact ⟨_, ws, .stop run, back grew, nofun⟩
    · rcases runs_openPath_relative absolute with run | run <;> exact nowhere (.stop run)
  | remove target =>
    obtain rfl := Option.some.inj h
    by_cases absolute : Path.Absolute target
    · rcases tries_remove l known absolute start with ⟨-, rem, ws, map', run, -, linked, way, -⟩ |
        ⟨cause, -, run⟩
      · exact ⟨_, ws, .finish run (.done _), linked.relinks.along l.valid way rem.table, nofun⟩
      · exact nowhere (.stop run)
    · exact nowhere (.stop (runs_remove_relative absolute))
  | read | write | seek | length | close | list | tree | freeCount | dump => cases h

/-- Headers and index blocks do not lie along any path. -/
theorem LaidOut.not_along_of_header (l : c.LaidOut n store map) {node : Node}
    (h : c s = some node) (hi : i = s ∨ i ∈ node.extent.index) : ¬ c.Along path i := by
  have spared {t : Nat} {other : Node} (ht : c t = some other) : i ∉ other.extent.data := by
    intro hm
    obtain ⟨ne, free⟩ := l.away_of_mem_data ht h hm
    exact hi.elim ne free
  rintro (free | ⟨extent, hmap, hm⟩ | ⟨way, t, extent, dir, -, -, ht, hm⟩)
  · refine free ⟨s, node, h, ?_⟩
    rcases hi with rfl | hi
    · exact List.mem_cons_self
    · exact Extent.mem_owned_of_mem_index hi
  · exact spared hmap hm
  · exact spared ht hm

/-- The data of a file does not lie along any path. -/
theorem LaidOut.not_along_of_file (l : c.LaidOut n store map) {extent : Extent}
    (h : c s = some ⟨extent, none⟩) (ne : s ≠ freeMapSector) (hi : i ∈ extent.data) :
    ¬ c.Along path i := by
  have own : i ∈ extent.owned s := Extent.mem_owned_of_mem_data hi
  rintro (free | ⟨mapExtent, hmap, hm⟩ | ⟨way, t, extent', dir, -, -, ht, hm⟩)
  · exact free ⟨s, _, h, own⟩
  · exact l.notMem_of_mem_data hmap h ne.symm hm own
  · refine l.notMem_of_mem_data ht h ?_ hm own
    rintro rfl
    rw [h] at ht
    cases ht

end Catalog

namespace Disk

variable (disk : Disk)

/-- The persisted free map has the sector as free. -/
def Free (i : Nat) : Prop := ∃ map, disk.freeMap? = some map ∧ map.isUsed i = .ok false

/-- The sector holds data of the file whose header is at `s`. -/
def HoldsData (s i : Nat) : Prop := ∃ header, disk.header? s = some header ∧ i ∈ header.dataSectors

/-- From `disk` to `disk'` the sectors in `written` were written, the last one first, and no others.
Each of them was free, or holds data of the free map or of a directory on the way down `path`. -/
structure Contained (disk disk' : Disk) (path : List String) (written : List Nat) : Prop where
  writes_eq : disk'.writes = written ++ disk.writes
  targets : ∀ i ∈ written, disk.Free i ∨ disk.HoldsData freeMapSector i ∨
    ∃ way e, way <+: path ∧ disk.find? way = some e ∧ e.isDirectory = true ∧
      disk.HoldsData e.sector i
  elsewhere : ∀ i, i ∉ written → disk'.store i = disk.store i
  headers : ∀ s header, disk.Heads s → disk.header? s = some header →
    ∀ i, i = s ∨ i ∈ header.indexSectors → disk'.store i = disk.store i
  files : ∀ way e, disk.find? way = some e → e.isDirectory = false →
    ∀ i, disk.HoldsData e.sector i → disk'.store i = disk.store i

/-- The free map, the directories and what the paths lead to are the same on both disks. -/
structure Unchanged (disk disk' : Disk) : Prop where
  freeMap : disk'.freeMap? = disk.freeMap?
  table : ∀ depth s, disk.Reaches depth s → disk'.table? s = disk.table? s
  names : disk'.toNamespace = disk.toNamespace

end Disk

namespace Catalog.LaidOut

variable {c : Catalog} {n i s : Nat} {disk disk' : Disk} {map : FreeMap} {path : List String}
variable (l : c.LaidOut n disk.store map) (sound : disk.Sound n)
include l sound

theorem holdsData_iff {node : Node} (h : c s = some node) :
    disk.HoldsData s i ↔ i ∈ node.extent.data := by
  have data : node.extent.header.dataSectors = node.extent.data := node.extent.dataSectors_chain
  unfold Disk.HoldsData
  rw [l.header?_eq sound h, ← data]
  simp

/-- Where a catalog says that a program works, the disk says it too. -/
theorem along_cases (hi : i < n) (h : c.Along path i) :
    disk.Free i ∨ disk.HoldsData freeMapSector i ∨
      ∃ way e, way <+: path ∧ disk.find? way = some e ∧ e.isDirectory = true ∧
        disk.HoldsData e.sector i := by
  rcases h with free | ⟨extent, hmap, hm⟩ | ⟨way, s, extent, dir, le, hway, hs, hm⟩
  · refine .inl ⟨map, l.freeMap?_eq sound, ?_⟩
    rw [FreeMap.isUsed_of_lt (by rw [l.count]; exact hi), decide_eq_false (mt (l.uses i).mp free)]
  · exact .inr (.inl ((l.holdsData_iff sound hmap).mpr hm))
  · rcases l.find?_cases sound way with ⟨e, node, found, hway', hnode, kind⟩ | ⟨-, lost⟩
    · rw [hway, Option.some.injEq] at hway'
      subst hway'
      rw [hs, Option.some.injEq] at hnode
      subst hnode
      exact .inr (.inr ⟨way, e, le, found, kind.symm, (l.holdsData_iff sound hs).mpr hm⟩)
    · rw [hway] at lost
      cases lost

/-- Writes along a path are contained. -/
theorem contained {ws : Writes} (wrote : disk.Wrote n ws disk')
    (along : ∀ w ∈ ws, c.Along path w.1) :
    disk.Contained disk' path (ws.map Prod.fst).reverse := by
  have elsewhere (i : Nat) (h : ¬ c.Along path i) : disk'.store i = disk.store i := by
    rw [wrote.store_eq sound.covers]
    apply Store.after_apply_of_forall
    rintro w hw rfl
    exact h (along w hw)
  refine ⟨wrote.writes_eq, ?_, ?_, ?_, ?_⟩
  · intro i hi
    obtain ⟨w, hw, rfl⟩ := List.mem_map.mp (List.mem_reverse.mp hi)
    exact l.along_cases sound (wrote.in_range w hw) (along w hw)
  · intro i hi
    rw [wrote.store_eq sound.covers]
    exact Store.after_apply_of_notMem _ fun hm => hi (List.mem_reverse.mpr hm)
  · intro s header heads hheader i hi
    obtain ⟨node, hnode⟩ := (l.heads_iff sound).mp heads
    have index : node.extent.header.indexSectors = node.extent.index :=
      node.extent.indexSectors_chain
    rw [l.header?_eq sound hnode, Option.some.injEq] at hheader
    subst hheader
    rw [index] at hi
    exact elsewhere i (l.not_along_of_header hnode hi)
  · intro way e found plain i hi
    rcases l.find?_cases sound way with ⟨e', ⟨extent, table⟩, found', hway, hnode, kind⟩ | ⟨lost, -⟩
    · rw [found, Option.some.injEq] at found'
      subst found'
      obtain rfl : table = none := by simpa using kind.trans plain
      have ne := (l.valid.exists_node_of_find? hway).1
      exact elsewhere i (l.not_along_of_file hnode ne ((l.holdsData_iff sound hnode).mp hi))
    · rw [found] at lost
      cases lost

/-- A disk that the same catalog is laid out on shows the same. -/
theorem unchanged (l' : c.LaidOut n disk'.store map) (sound' : disk'.Sound n) :
    disk.Unchanged disk' where
  freeMap := (l'.freeMap?_eq sound').trans (l.freeMap?_eq sound).symm
  table depth s reaches := by
    obtain ⟨way, dir, -, -, table⟩ := l.find?_of_reaches sound reaches
    exact (l'.table?_eq sound' table).trans (l.table?_eq sound table).symm
  names := (l'.toNamespace_eq sound').trans (l.toNamespace_eq sound).symm

end Catalog.LaidOut

variable {n : Nat} {past : List Action} {volume : Volume} {disk : Disk}

/-- Whatever fails while a request makes or removes nodes, what it has written is contained. If the
directory of a new node exists, and its table was not written yet, nothing has changed. -/
theorem Run.faults_contained {request : Request} {path : String} (large : 15 ≤ n)
    (small : n ≤ diskLimit) (run : Run n past volume disk) (h : request.changes? = some path)
    (plan : FaultPlan) :
    ∃ result disk' written,
      volume.perform request (disk.withFaults plan) = ending result disk' ∧
      disk.Contained disk' (Path.parent path) written ∧
      ∀ e, request.makes = true → disk.find? (Path.parent path) = some e →
        (∀ i, disk.HoldsData e.sector i → i ∉ written) →
        disk.Unchanged (disk'.withFaults .none) ∧ (disk'.withFaults .none).Consistent n := by
  obtain ⟨c, map, ⟨sound, l, known⟩, -⟩ := run.mounted large small
  obtain ⟨result, ws, tries, along, first⟩ := Catalog.tries_perform (K := fun _ => True) l known h
  have covers := sound.covers.withFaults plan
  have runs : Runs n (disk.withFaults plan).store _ result ws := tries.runs
  obtain ⟨result', disk', vs, ends, wrote, le, -⟩ := runs.cut covers
  have wrote' : disk.Wrote n vs (disk'.withFaults disk.faults) :=
    ⟨wrote.in_range, wrote.sectorCount_eq, rfl, wrote.image_eq, wrote.writes_eq⟩
  have contained := l.contained sound wrote' fun w hw => along w (le.subset hw)
  refine ⟨result', disk', _, ends,
    ⟨contained.writes_eq, contained.targets, contained.elsewhere, contained.headers,
      contained.files⟩, fun e makes there spared => ?_⟩
  rcases l.find?_cases sound (Path.parent path) with ⟨e', node, there', way, hnode, -⟩ | ⟨lost, -⟩
  · rw [there, Option.some.injEq] at there'
    subst there'
    have free := first makes _ way vs le fun node' hnode' w hw hm =>
      spared w.1 ((l.holdsData_iff sound hnode').mpr hm)
        (List.mem_reverse.mpr (List.mem_map_of_mem hw))
    have healed := (wrote.covers covers).sound_withFaults
    have l' := l.write_free free
    rw [show disk.store.after vs = (disk'.withFaults .none).store from
      (wrote.store_eq covers).symm] at l'
    exact ⟨l.unchanged sound l' healed, l'.consistent healed⟩
  · rw [there] at lost
    cases lost

theorem faults_contained_create : ∃ volume disk, Run 40 sample volume disk ∧
    ∃ result disk' written, volume.perform (.create "/a/c" 10)
        (disk.withFaults (.ofLists [] [] (some 53) false)) = ending result disk' ∧
      disk.Contained disk' (Path.parent "/a/c") written ∧
      ∀ e, disk.find? (Path.parent "/a/c") = some e →
        (∀ i, disk.HoldsData e.sector i → i ∉ written) →
        disk.Unchanged (disk'.withFaults .none) ∧ (disk'.withFaults .none).Consistent 40 := by
  obtain ⟨volume, disk, run⟩ := exists_run_sample
  have takes : (Request.create "/a/c" 10).changes? = some "/a/c" := rfl
  obtain ⟨result, disk', written, ends, contained, first⟩ :=
    run.faults_contained (by decide) (by decide) takes (.ofLists [] [] (some 53) false)
  exact ⟨volume, disk, run, result, disk', written, ends, contained, fun e => first e rfl⟩

end SectorFS
