import SectorFS.Proofs.Volume.Cut

/-!
# What a removal comes to

The checks of a removal are those of `Namespace.removal?`, in this order. When one of them fails
nothing is written. Otherwise the sectors of the node become free, its slot becomes empty, and
nothing is written for anything else: `Disk.TakenOut`.
-/

namespace SectorFS

open Catalog

/-- The check that fails first when the volume removes what a path names on the disk. -/
def Volume.removal? (volume : Volume) (disk : Disk) (path : String) : Option Error :=
  disk.toNamespace.removal? path
    ((disk.find? (Path.target path)).any fun entry => volume.isOpen entry.sector)

/-- From `disk` to `disk'` the node of `entry` was taken out of the directory of `parent`. Its
header, its index blocks and its data sectors were in use and became free, and only its slot became
empty. All sectors that were written hold data of the free map or of the parent. -/
structure Disk.TakenOut (disk disk' : Disk) (parent entry : Entry) : Prop where
  map : ∃ header map map', disk.header? entry.sector = some header ∧ disk.freeMap? = some map ∧
    disk'.freeMap? = some map' ∧ (∀ i ∈ header.owned entry.sector, map.isUsed i = .ok true) ∧
    ∀ i, map'.isUsed i = if i ∈ header.owned entry.sector then .ok false else map.isUsed i
  table : ∃ slot dir dir', disk.table? parent.sector = some dir ∧
    disk'.table? parent.sector = some dir' ∧ dir.held slot = some entry ∧
    dir'.capacity = dir.capacity ∧ dir'.held = Function.update dir.held slot none
  writes : ∃ written, disk'.writes = written ++ disk.writes ∧
    (∀ i ∈ written, disk.HoldsData freeMapSector i ∨ disk.HoldsData parent.sector i) ∧
    ∀ i, i ∉ written → disk'.store i = disk.store i

namespace Catalog.LaidOut

variable {c : Catalog} {n : Nat} {disk disk' : Disk} {map map' : FreeMap} {path : List String}
variable (l : c.LaidOut n disk.store map) (sound : disk.Sound n)
include l sound

theorem removal?_eq (volume : Volume) (path : String) :
    volume.removal? disk path = c.removal? volume path := by
  rw [Volume.removal?, Catalog.removal?, l.toNamespace_eq sound]
  rcases l.find?_cases sound (Path.target path) with ⟨e, node, found, way, -⟩ | ⟨lost, lost'⟩
  · rw [found, way]
    rfl
  · rw [lost, lost']
    rfl

/-- A removal on the catalog is one on the disk. -/
theorem takenOut (rem : Removal c) {ws : Writes} (wrote : disk.Wrote n ws disk')
    (linked : c.Rewrites rem.parent ws) (l' : rem.result.LaidOut n disk'.store map')
    (way : c.find? path = some rem.parent) :
    ∃ parent, disk.find? path = some parent ∧
      disk.find? (path ++ [rem.entry.name]) = some rem.entry ∧
      disk.TakenOut disk' parent rem.entry := by
  have sound' := wrote.sound sound
  obtain ⟨extent, hparent⟩ := rem.exists_parent
  obtain ⟨parent, above, sector, -, -⟩ := l.exists_entry sound way hparent
  have owned (i : Nat) : i ∈ rem.node.extent.header.owned rem.entry.sector ↔
      i ∈ rem.node.extent.owned rem.entry.sector :=
    (rem.node.extent.owned_header rem.entry.sector).mem_iff
  refine ⟨parent, above, l.find?_of_held sound way rem.table rem.there, ?_, ?_, ?_⟩
  · refine ⟨_, map, map', l.header?_eq sound rem.node_at, l.freeMap?_eq sound,
      l'.freeMap?_eq sound', fun i hi => ?_, fun i => ?_⟩
    · rw [FreeMap.isUsed_eq_ok_true_iff, l.uses]
      exact ⟨_, _, rem.node_at, (owned i).mp hi⟩
    · have uses := (l'.uses i).trans ((rem.owns_result l.valid).trans
        (and_congr (not_congr (owned i).symm) (l.uses i).symm))
      by_cases hi : i ∈ rem.node.extent.header.owned rem.entry.sector
      · have lt : i < map'.sectorCount := by
          rw [l'.count]
          exact l.valid.lt i ⟨_, _, rem.node_at, (owned i).mp hi⟩
        rw [if_pos hi, FreeMap.isUsed_of_lt lt, decide_eq_false]
        exact fun used => (uses.mp used).1 hi
      · rw [if_neg hi]
        apply FreeMap.isUsed_congr (l'.count.trans l.count.symm)
        rw [uses]
        exact and_iff_right hi
  · rw [sector]
    exact ⟨rem.slot, rem.old, rem.new, l.table?_eq sound rem.table,
      l'.table?_eq sound' (table?_eq_some_iff.mpr ⟨extent, rem.result_parent hparent⟩), rem.there,
      rem.capacity, rem.held⟩
  · refine ⟨_, wrote.writes_eq, fun i hi => ?_, fun i hi => ?_⟩
    · obtain ⟨w, hw, rfl⟩ := List.mem_map.mp (List.mem_reverse.mp hi)
      obtain ⟨s, node, rfl | rfl, hnode, hm⟩ := linked w hw
      · rw [sector]
        exact .inr ((l.holdsData_iff sound hnode).mpr hm)
      · exact .inl ((l.holdsData_iff sound hnode).mpr hm)
    · rw [wrote.store_eq sound.covers]
      exact Store.after_apply_of_notMem _ fun hm => hi (List.mem_reverse.mpr hm)

end Catalog.LaidOut

variable {n : Nat} {past : List Action} {volume : Volume} {disk : Disk}

/-- A removal is refused by the first check that fails, and then writes nothing, or it takes the
node out. -/
theorem Run.remove_ends {path : String} (large : 15 ≤ n) (small : n ≤ diskLimit)
    (run : Run n past volume disk) (absolute : Path.Absolute path) :
    match volume.removal? disk path with
    | some cause => ∃ disk', volume.perform (.remove path) disk = .error (.error cause) disk' ∧
        disk.Untouched disk'
    | none => ∃ parent entry disk', disk.find? (Path.parent path) = some parent ∧
        disk.find? (Path.target path) = some entry ∧
        volume.perform (.remove path) disk = .ok (.done, volume) disk' ∧
        disk.TakenOut disk' parent entry := by
  obtain ⟨c, map, ⟨sound, l, known⟩, -⟩ := run.mounted large small
  have outcome := runs_remove l known absolute
  rw [← l.removal?_eq sound volume path] at outcome
  generalize volume.removal? disk path = refusal at outcome ⊢
  rcases outcome with ⟨rfl, rem, ws, map', run, l', linked, way, name, -⟩ | ⟨cause, rfl, run⟩
  · obtain ⟨disk', ends, wrote⟩ := run.ends sound
    rw [← wrote.store_eq sound.covers] at l'
    obtain ⟨parent, above, found, takenOut⟩ := l.takenOut sound rem wrote linked l' way
    rw [name] at found
    exact ⟨parent, rem.entry, disk', above, found, ends, takenOut⟩
  · obtain ⟨disk', ends, wrote⟩ := run.ends sound
    exact ⟨disk', ends, wrote.untouched⟩

theorem remove_ends_sample : ∃ volume disk, Run 40 sample volume disk ∧
    match volume.removal? disk "/a/b" with
    | some cause => ∃ disk', volume.perform (.remove "/a/b") disk = .error (.error cause) disk' ∧
        disk.Untouched disk'
    | none => ∃ parent entry disk', disk.find? (Path.parent "/a/b") = some parent ∧
        disk.find? (Path.target "/a/b") = some entry ∧
        volume.perform (.remove "/a/b") disk = .ok (.done, volume) disk' ∧
        disk.TakenOut disk' parent entry := by
  obtain ⟨volume, disk, run⟩ := exists_run_sample
  exact ⟨volume, disk, run, run.remove_ends (by decide) (by decide) (by decide)⟩

end SectorFS
