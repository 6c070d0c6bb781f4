import SectorFS.Proofs.Volume.Interlude
import SectorFS.Proofs.Volume.Ownership
import SectorFS.Proofs.Volume.Placement

/-!
# Removing what was made

A removal undoes the making of its node, whatever was read and written in between: the free map, the
names, the headers and the tables are those from before (`Disk.Restored`). Only the slot that was
used and is empty again may hold other bytes than it did. As free sectors and empty slots are taken
lowest first, the node finds its old place when it is made again: `Run.remove_undoes_make`.
-/

namespace SectorFS

open Catalog Volume

namespace Directory

theorem labels_congr {dir dir' : Directory} (capacity : dir'.capacity = dir.capacity)
    (held : dir'.held = dir.held) : dir'.labels = dir.labels := by
  apply List.ext_getElem?
  intro i
  rw [getElem?_labels, getElem?_labels, capacity, held]

end Directory

/-- What is stored of an extent can be stored in one way only. -/
theorem Extent.StoredAt.unique {extent : Extent} {store store' : Store} {s : Nat}
    (h : extent.StoredAt store s) (h' : extent.StoredAt store' s) :
    ∀ i, i = s ∨ i ∈ extent.header.indexSectors → store' i = store i := by
  rintro i (rfl | hi)
  · exact h'.header.trans h.header.symm
  · obtain ⟨stored, hm, rfl⟩ := List.mem_map.mp hi
    exact (h'.blocks stored hm).trans (h.blocks stored hm).symm

/-- One map and one request lead to one reservation, wherever its slot is. -/
theorem Reserved.eq {map : FreeMap} {dir dir' : Directory} {name : String} {size : Nat}
    {isDirectory : Bool} {found found' : NewNode} (r : Reserved map dir name size isDirectory found)
    (r' : Reserved map dir' name size isDirectory found') :
    found'.sector = found.sector ∧ found'.header = found.header ∧ found'.map = found.map := by
  have claim := r'.claim
  rw [r.claim, Option.some.injEq, Prod.mk.injEq] at claim
  have extent := r'.extent
  rw [← claim.1, r.extent, Except.ok.injEq, Prod.mk.injEq] at extent
  exact ⟨claim.1.symm, extent.1.symm, extent.2.symm⟩

/-- On `disk'` all is as on `disk`, but for what the files hold and for what the empty slots of the
directory at `parent` hold. -/
structure Disk.Restored (disk disk' : Disk) (parent : Nat) : Prop where
  freeMap : disk'.freeMap? = disk.freeMap?
  mapBytes : ∀ header, disk.header? freeMapSector = some header →
    (disk'.store.bytes header.dataSectors).take header.length =
      (disk.store.bytes header.dataSectors).take header.length
  names : disk'.toNamespace = disk.toNamespace
  entries : disk'.find? = disk.find?
  headers : ∀ s header, disk.Heads s → disk.header? s = some header →
    disk'.header? s = some header ∧
      ∀ i, i = s ∨ i ∈ header.indexSectors → disk'.store i = disk.store i
  tables : ∀ depth s, disk.Reaches depth s → s ≠ parent → disk'.table? s = disk.table? s

namespace Catalog

variable {c c' : Catalog} {n p : Nat} {map : FreeMap} {volume : Volume} {disk disk' : Disk}

/-- The catalogs differ in the directory at `p` at most, and there in nothing but what the empty
slots hold. -/
structure Alike (c c' : Catalog) (p : Nat) : Prop where
  elsewhere : ∀ s, s ≠ p → c' s = c s
  directory : ∃ extent dir dir', c p = some ⟨extent, some dir⟩ ∧ c' p = some ⟨extent, some dir'⟩ ∧
    dir'.capacity = dir.capacity ∧ dir'.held = dir.held

namespace Alike

variable (a : c.Alike c' p)
include a

theorem symm : c'.Alike c p := by
  obtain ⟨extent, dir, dir', there, there', capacity, held⟩ := a.directory
  exact ⟨fun s hs => (a.elsewhere s hs).symm, extent, dir', dir, there', there, capacity.symm,
    held.symm⟩

theorem exists_node {s : Nat} {node : Node} (h : c s = some node) :
    ∃ node', c' s = some node' ∧ node'.extent = node.extent ∧ node'.item = node.item := by
  by_cases hs : s = p
  · subst hs
    obtain ⟨extent, dir, dir', there, there', capacity, held⟩ := a.directory
    rw [h, Option.some.injEq] at there
    refine ⟨_, there', by rw [there], ?_⟩
    rw [there]
    exact congrArg Item.directory (Directory.labels_congr capacity held)
  · exact ⟨node, (a.elsewhere s hs).trans h, rfl, rfl⟩

theorem owns {i : Nat} (h : c.Owns i) : c'.Owns i := by
  obtain ⟨s, node, hs, hi⟩ := h
  obtain ⟨node', hs', extent, -⟩ := a.exists_node hs
  exact ⟨s, node', hs', extent ▸ hi⟩

theorem owns_iff {i : Nat} : c'.Owns i ↔ c.Owns i := ⟨a.symm.owns, a.owns⟩

/-- The map is true to both catalogs. -/
theorem map_eq {store store' : Store} {map' : FreeMap} (l : c.LaidOut n store map)
    (l' : c'.LaidOut n store' map') : map' = map :=
  FreeMap.ext_uses (l'.count.trans l.count.symm) fun i =>
    (l'.uses i).trans (a.owns_iff.trans (l.uses i).symm)

theorem held?_eq (q i : Nat) : c'.held? q i = c.held? q i := by
  by_cases hq : q = p
  · subst hq
    obtain ⟨extent, dir, dir', there, there', -, held⟩ := a.directory
    simp [held?, table?, there, there', held]
  · simp [held?, table?, a.elsewhere q hq]

variable (tidy : c.Tidy) (tidy' : c'.Tidy)
include tidy tidy'

theorem child?_eq (q : Nat) (name : String) : c'.child? q name = c.child? q name := by
  apply Option.ext
  intro e
  rw [tidy'.child?_eq_some_iff, tidy.child?_eq_some_iff]
  simp only [a.held?_eq]

theorem find?_eq (path : List String) : c'.find? path = c.find? path := by
  induction path using List.reverseRecOn with
  | nil => rfl
  | append_singleton path name ih =>
    rw [find?_concat, find?_concat, ih]
    simp only [a.child?_eq tidy tidy']

theorem leads {path : List String} {item : Item} (h : c.toNamespace path = some item) :
    c'.toNamespace path = some item := by
  obtain ⟨s, node, way, hs, rfl⟩ := toNamespace_eq_some_iff.mp h
  obtain ⟨node', hs', -, item⟩ := a.exists_node hs
  rw [toNamespace_of_find? ((a.find?_eq tidy tidy' path).trans way) hs', item]

theorem toNamespace_eq : c'.toNamespace = c.toNamespace := by
  funext path
  apply Option.ext
  exact fun item => ⟨a.symm.leads tidy' tidy, a.leads tidy tidy'⟩

end Alike

/-- A removal of the node that was inserted leaves nothing of it. -/
theorem Insertion.alike_of_removal (ins : Insertion n c) (rem : Removal ins.result)
    (parent : rem.parent = ins.parent) (name : rem.entry.name = ins.entry.name) :
    c.Alike rem.result ins.parent := by
  obtain ⟨extent, hparent⟩ := ins.exists_parent
  have old : rem.old = ins.new := by
    have table := rem.table
    have relinked : ins.result.table? ins.parent = some ins.new :=
      table?_relink_parent ins.parent_ne ins.table
    rw [parent, relinked, Option.some.injEq] at table
    exact table.symm
  have there := rem.there
  rw [old] at there
  have entered : ins.new.held ins.slot = some ins.entry := by
    rw [ins.held, Function.update_self]
  have slot : rem.slot = ins.slot := ins.tidy.distinct _ _ _ _ there entered name
  have entry : rem.entry = ins.entry := by
    rw [slot, entered, Option.some.injEq] at there
    exact there.symm
  refine ⟨fun s hs => ?_, extent, ins.old, rem.new, hparent, ?_, ?_, ?_⟩
  · by_cases new : s = ins.entry.sector
    · rw [new, ← entry, rem.result_self, entry]
      symm
      rw [Option.eq_none_iff_forall_not_mem]
      exact fun node hnode => ins.not_owns_sector (owns_header hnode)
    · have kept : rem.result s = ins.result s := relink_of_ne (entry ▸ new) (parent ▸ hs)
      exact kept.trans (relink_of_ne new hs)
  · have relinked : ins.result rem.parent = some ⟨extent, some rem.old⟩ := by
      rw [parent, old]
      exact ins.result_parent hparent
    rw [← parent]
    exact rem.result_parent relinked
  · rw [rem.capacity, old, ins.capacity]
  · rw [rem.held, old, slot, ins.held, Function.update_idem, ← ins.empty, Function.update_eq_self]

/-- On the disks the same paths lead to the same entries. -/
theorem Alike.entries_eq (a : c.Alike c' p) (l : c.LaidOut n disk.store map) (sound : disk.Sound n)
    (l' : c'.LaidOut n disk'.store map) (sound' : disk'.Sound n) (path : List String) :
    disk'.find? path = disk.find? path := by
  induction path using List.reverseRecOn with
  | nil => rfl
  | append_singleton path name ih =>
    rw [Disk.find?_concat, Disk.find?_concat, ih]
    rcases l.find?_cases sound path with ⟨e, ⟨extent, table⟩, found, way, hnode, kind⟩ | ⟨lost, -⟩
    · rw [found, Option.bind_some, Option.bind_some, ← kind]
      cases table with
      | none => rfl
      | some dir =>
        obtain ⟨⟨extent', table'⟩, hnode', -, item⟩ := a.exists_node hnode
        cases table' with
        | none => cases item
        | some dir' =>
          have table := table?_eq_some_iff.mpr ⟨extent, hnode⟩
          have table' := table?_eq_some_iff.mpr ⟨extent', hnode'⟩
          have same := a.child?_eq l.valid.tidy l'.valid.tidy e.sector name
          rw [child?, table', child?, table] at same
          rw [l.table?_eq sound table, l'.table?_eq sound' table']
          simpa using same
    · rw [lost]
      rfl

theorem LaidOut.restored (l : c.LaidOut n disk.store map) (sound : disk.Sound n)
    (l' : c'.LaidOut n disk'.store map) (sound' : disk'.Sound n) (a : c.Alike c' p) :
    disk.Restored disk' p where
  freeMap := by rw [l.freeMap?_eq sound, l'.freeMap?_eq sound']
  mapBytes header hheader := by
    obtain ⟨extent, hmap, -⟩ := l.valid.map
    obtain ⟨parent, dir, -, there, -⟩ := a.directory
    have other := l.valid.ne_map (table?_eq_some_iff.mpr ⟨parent, there⟩)
    have hmap' := (a.elsewhere freeMapSector other.symm).trans hmap
    have data : extent.header.dataSectors = extent.data := extent.dataSectors_chain
    rw [l.header?_eq sound hmap, Option.some.injEq] at hheader
    rw [← hheader, data]
    exact (l'.map_bytes extent hmap').trans (l.map_bytes extent hmap).symm
  names := by
    rw [l.toNamespace_eq sound, l'.toNamespace_eq sound']
    exact a.toNamespace_eq l.valid.tidy l'.valid.tidy
  entries := funext (a.entries_eq l sound l' sound')
  headers s header heads hheader := by
    obtain ⟨node, hnode⟩ := (l.heads_iff sound).mp heads
    obtain ⟨node', hnode', extent, -⟩ := a.exists_node hnode
    rw [l.header?_eq sound hnode, Option.some.injEq] at hheader
    have stored := (l'.stored s node' hnode').extent
    rw [extent] at stored
    rw [l'.header?_eq sound' hnode', extent, ← hheader]
    exact ⟨rfl, (l.stored s node hnode).extent.unique stored⟩
  tables depth s reaches other := by
    obtain ⟨path, dir, -, -, table⟩ := l.find?_of_reaches sound reaches
    have table' : c'.table? s = some dir := by
      rw [table?, a.elsewhere s other]
      exact table
    rw [l.table?_eq sound table, l'.table?_eq sound' table']

/-- No check stands against the removal of what was inserted. -/
theorem Insertion.removal?_eq_none (ins : Insertion n c) (v : c.Valid n) {path : String}
    (way : c.find? (Path.parent path) = some ins.parent) (name : ins.entry.name = Path.leaf path)
    (closed : volume.isOpen ins.entry.sector = false) :
    ins.result.removal? volume path = none := by
  have above := ins.find?_result v way
  have there := ins.find?_result_new v way
  rw [name] at there
  have named : (Path.leaf path).isEmpty = false := by
    rw [← name, String.isEmpty_eq_false_iff]
    intro empty
    exact ins.valid_name.nonempty (by simp [empty])
  have clear : ins.result.toNamespace.obstacle? [] (Path.parent path) = none := by
    obtain ⟨extent, hparent⟩ := ins.exists_parent
    have directory := toNamespace_of_find? above (ins.result_parent hparent)
    exact (ins.valid v).tree.obstacle?_eq_none directory
  have bare : ins.node.item.isOccupied = false := by
    rw [isOccupied_item]
    intro table htable j
    rw [(ins.bare table htable).1, Directory.held_new]
  rw [Catalog.removal?, Namespace.removal?, named, clear, Path.target,
    toNamespace_of_find? there ins.result_self, there]
  simp [closed, bare]

/-- What was inserted is removed again. -/
theorem Insertion.removed (ins : Insertion n c) (v : c.Valid n) {path : String}
    (absolute : Path.Absolute path) (way : c.find? (Path.parent path) = some ins.parent)
    (name : ins.entry.name = Path.leaf path) (m : volume.Mounted disk n ins.result map)
    (closed : volume.isOpen ins.entry.sector = false) :
    ∃ c' map' disk', volume.perform (.remove path) disk = .ok (.done, volume) disk' ∧
      volume.Mounted disk' n c' map' ∧ c.Alike c' ins.parent := by
  have ⟨sound, l, known⟩ := m
  rcases runs_remove l known absolute with
    ⟨-, rem, ws, map', run, l', -, way', name', closed'⟩ | ⟨cause, refused, -⟩
  · have parent : rem.parent = ins.parent := by
      rw [ins.find?_result v way, Option.some.injEq] at way'
      exact way'.symm
    have alike := ins.alike_of_removal rem parent (name'.trans name.symm)
    obtain ⟨disk', ends, wrote⟩ := run.ends sound
    rw [← wrote.store_eq sound.covers] at l'
    exact ⟨rem.result, map', disk', ends,
      ⟨wrote.sound sound, l', known.removal rem l.valid closed'⟩, alike⟩
  · rw [ins.removal?_eq_none v way name closed] at refused
    cases refused

/-- The lowest empty slot is the same in tables that hold the same. -/
theorem Insertion.slot_eq (ins : Insertion n c) (ins' : Insertion n c')
    (held : ins'.old.held = ins.old.held) : ins'.slot = ins.slot := by
  rcases Nat.lt_trichotomy ins'.slot ins.slot with lt | same | lt
  · have empty := ins'.empty
    rw [held] at empty
    exact absurd empty (ins.lowest _ lt)
  · exact same
  · have taken := ins'.lowest _ lt
    rw [held] at taken
    exact absurd ins.empty taken

/-- A node that was made is made again in the same place. -/
theorem Alike.made_again {t : Nat} (a : c.Alike c' t) (l : c.LaidOut n disk.store map)
    (m : volume.Mounted disk' n c' map) {request : Request} {path : String} {size : Nat}
    {isDirectory : Bool} (makes : request.node? = some (path, size, isDirectory))
    (absolute : Path.Absolute path) (bounded : size + sectorSize < Size.limit) {dir : Directory}
    (way : c.find? (Path.parent path) = some t) (table : c.table? t = some dir)
    (passes : refusal? dir.labels (Path.leaf path) map.freeCount (Extent.span size) = none)
    {ins : Insertion n c} {found : NewNode}
    (reserved : Reserved map dir (Path.leaf path) size isDirectory found)
    (reserves : ins.Reserves t dir (Path.leaf path) size isDirectory found) :
    ∃ (ins' : Insertion n c') (disk'' : Disk),
      volume.perform request disk' = .ok (.done, volume) disk'' ∧
      volume.Mounted disk'' n ins'.result found.map ∧ ins'.parent = ins.parent ∧
      ins'.slot = ins.slot ∧ ins'.entry = ins.entry ∧
      ins'.node.extent.header = ins.node.extent.header := by
  have ⟨sound', l', known⟩ := m
  have way' := (a.find?_eq l.valid.tidy l'.valid.tidy (Path.parent path)).trans way
  obtain ⟨extent, old, dir', there, there', capacity, held⟩ := a.directory
  obtain rfl : dir = old := by
    rw [table?, there] at table
    exact (Option.some.inj table).symm
  have table' : c'.table? t = some dir' := table?_eq_some_iff.mpr ⟨extent, there'⟩
  have outcome := runs_make l' known makes absolute way' table' bounded
  rw [Directory.labels_congr capacity held, passes] at outcome
  obtain ⟨found', ins', ws, run, reserved', reserves', placed⟩ := outcome
  obtain ⟨disk'', ends, wrote⟩ := run.ends sound'
  obtain ⟨sector, header, same⟩ := reserved.eq reserved'
  have olds : ins'.old.held = ins.old.held := by
    rw [reserves'.old, reserves.old]
    exact held
  refine ⟨ins', disk'', ends, same ▸ m.insertion placed wrote, ?_, ins.slot_eq ins' olds, ?_, ?_⟩
  · rw [reserves'.parent, reserves.parent]
  · rw [reserves'.entry, reserves.entry, sector]
  · rw [← reserves'.header, ← reserves.header, header]

/-- The disk shows what was inserted. -/
theorem Insertion.shown (ins : Insertion n c) (v : c.Valid n) {path : String}
    (way : c.find? (Path.parent path) = some ins.parent) (name : ins.entry.name = Path.leaf path)
    (m : volume.Mounted disk n ins.result map) :
    disk.find? (Path.target path) = some ins.entry ∧
      disk.Holds ins.parent ins.slot ins.entry ∧
      disk.header? ins.entry.sector = some ins.node.extent.header := by
  obtain ⟨sound, l, -⟩ := m
  have above := ins.find?_result v way
  obtain ⟨dir, table, held⟩ := held?_eq_some_iff.mp ins.held?_result_new
  refine ⟨?_, l.holds_of_held? sound above ins.held?_result_new,
    l.header?_eq sound ins.result_self⟩
  rw [Path.target, ← name]
  exact l.find?_of_held sound above table held

/-- Only what is named by an absolute path and no larger than a file can be is made. -/
theorem LaidOut.of_made (l : c.LaidOut n disk.store map) (sound : disk.Sound n)
    (known : volume.Over c n) {request : Request} {path : String} {size : Nat} {isDirectory : Bool}
    (makes : request.node? = some (path, size, isDirectory)) {answer : Answer} {volume' : Volume}
    (made : volume.perform request disk = .ok (answer, volume') disk') :
    Path.Absolute path ∧ size + sectorSize < Size.limit := by
  have never {e : Failure} {ws : Writes}
      (run : Runs n disk.store (volume.perform request) (.error e) ws) : False := by
    cases (run.of_ended sound made).1
  cases request with
  | create target size' =>
    cases makes
    have absolute : Path.Absolute path := by
      by_contra relative
      exact never (.stop (.stop (runs_placeFor_relative relative)))
    refine ⟨absolute, ?_⟩
    obtain ⟨ws, c', map', -, ⟨s, extent, -, rfl, -⟩ | ⟨e, k, tries, -⟩⟩ :=
      tries_create (K := fun _ => True) l known absolute size
    · have small := extent.size_lt
      simp only [Word.sectorLimit, Size.limit, sectorSize] at *
      omega
    · exact (never (.stop tries.runs)).elim
  | makeDirectory target =>
    cases makes
    refine ⟨?_, by decide⟩
    by_contra relative
    exact never (.stop (.stop (runs_placeFor_relative relative)))
  | _ => cases makes

/-- A node that was made was inserted where it was reserved. -/
theorem exists_of_made {volume' : Volume} (m : volume.Mounted disk n c map) {request : Request}
    {path : String} {size : Nat} {isDirectory : Bool}
    (makes : request.node? = some (path, size, isDirectory)) {t : Nat} {dir : Directory}
    (way : c.find? (Path.parent path) = some t) (table : c.table? t = some dir) {answer : Answer}
    (made : volume.perform request disk = .ok (answer, volume') disk') :
    Path.Absolute path ∧ size + sectorSize < Size.limit ∧ volume' = volume ∧
      refusal? dir.labels (Path.leaf path) map.freeCount (Extent.span size) = none ∧
      ∃ (found : NewNode) (ins : Insertion n c),
        Reserved map dir (Path.leaf path) size isDirectory found ∧
        ins.Reserves t dir (Path.leaf path) size isDirectory found ∧
        volume.Mounted disk' n ins.result found.map := by
  have ⟨sound, l, known⟩ := m
  obtain ⟨absolute, bounded⟩ := l.of_made sound known makes made
  have outcome := runs_make l known makes absolute way table bounded
  cases refused : refusal? dir.labels (Path.leaf path) map.freeCount (Extent.span size) with
  | some cause =>
    rw [refused] at outcome
    cases (outcome.of_ended sound made).1
  | none =>
    rw [refused] at outcome
    obtain ⟨found, ins, ws, run, reserved, reserves, placed⟩ := outcome
    obtain ⟨ended, wrote⟩ := run.of_ended sound made
    cases ended
    exact ⟨absolute, bounded, rfl, rfl, found, ins, reserved, reserves, m.insertion placed wrote⟩

end Catalog

variable {n : Nat} {past : List Action} {volume volume₁ volume₂ : Volume}
variable {disk disk₁ disk₂ : Disk}

/-- When a node was made in a directory that was there, and nothing else was made or removed before
it is removed again, then the disk is restored, and the same request puts the node in the same slot
with the same sectors. -/
theorem Run.remove_undoes_make {request : Request} {path : String} {size : Nat}
    {isDirectory : Bool} {slots : List (Option String)} {answer : Answer} (large : 15 ≤ n)
    (small : n ≤ diskLimit) (run : Run n past volume disk)
    (makes : request.node? = some (path, size, isDirectory))
    (there : disk.toNamespace (Path.parent path) = some (.directory slots))
    (made : volume.perform request disk = .ok (answer, volume₁) disk₁)
    (between : Interlude volume₁ disk₁ volume₂ disk₂)
    (closed : ∀ entry, disk₁.find? (Path.target path) = some entry →
      volume₂.isOpen entry.sector = false) :
    ∃ parent slot entry header disk₃ disk₄,
      disk.find? (Path.parent path) = some parent ∧
      disk₁.find? (Path.target path) = some entry ∧
      disk₁.Holds parent.sector slot entry ∧ disk₁.header? entry.sector = some header ∧
      volume₂.perform (.remove path) disk₂ = .ok (.done, volume₂) disk₃ ∧
      disk.Restored disk₃ parent.sector ∧
      volume₂.perform request disk₃ = .ok (.done, volume₂) disk₄ ∧
      disk₄.Holds parent.sector slot entry ∧ disk₄.header? entry.sector = some header ∧
      disk₄.freeMap? = disk₁.freeMap? := by
  obtain ⟨c, map, m, -⟩ := run.mounted large small
  have ⟨sound, l, _⟩ := m
  rw [m.toNamespace_eq] at there
  obtain ⟨t, dir, way, table, -⟩ := toNamespace_eq_directory_iff.mp there
  obtain ⟨absolute, bounded, rfl, passes, found, ins, reserved, reserves, m₁⟩ :=
    exists_of_made m makes way table made
  have name : ins.entry.name = Path.leaf path := by
    rw [reserves.entry]
  have hparent : c.find? (Path.parent path) = some ins.parent := by
    rw [way, reserves.parent]
  obtain ⟨target, holds, header⟩ := ins.shown l.valid hparent name m₁
  obtain ⟨c₃, map₃, disk₃, removes, m₃, alike⟩ :=
    ins.removed l.valid absolute hparent name (m₁.interlude between) (closed _ target)
  obtain rfl := alike.map_eq l m₃.laidOut
  have restored := l.restored sound m₃.laidOut m₃.sound alike
  rw [reserves.parent] at alike restored holds
  obtain ⟨ins', disk₄, again, m₄, parent, slot, entry, header'⟩ :=
    alike.made_again l m₃ makes absolute bounded way table passes reserved reserves
  have hparent' : c₃.find? (Path.parent path) = some ins'.parent := by
    rw [alike.find?_eq l.valid.tidy m₃.laidOut.valid.tidy, hparent, parent]
  have name' : ins'.entry.name = Path.leaf path := by
    rw [entry, name]
  obtain ⟨-, holds', shown'⟩ := ins'.shown m₃.laidOut.valid hparent' name' m₄
  rw [parent, slot, entry, reserves.parent] at holds'
  rw [entry, header'] at shown'
  obtain ⟨extent, hnode⟩ := table?_eq_some_iff.mp table
  obtain ⟨above, habove, rfl, -⟩ := l.exists_entry sound way hnode
  refine ⟨above, ins.slot, ins.entry, ins.node.extent.header, disk₃, disk₄, habove, target,
    holds, header, removes, restored, again, holds', shown', ?_⟩
  rw [m₁.laidOut.freeMap?_eq m₁.sound, m₄.laidOut.freeMap?_eq m₄.sound]

theorem remove_undoes_make_blank : ∃ volume disk slots answer volume₁ disk₁ volume₂ disk₂,
    Run 20 [] volume disk ∧ disk.toNamespace (Path.parent "/c") = some (.directory slots) ∧
    volume.perform (.create "/c" 10) disk = .ok (answer, volume₁) disk₁ ∧
    Interlude volume₁ disk₁ volume₂ disk₂ ∧
    (∀ entry, disk₁.find? (Path.target "/c") = some entry →
      volume₂.isOpen entry.sector = false) ∧
    ∃ parent slot entry header disk₃ disk₄,
      disk.find? (Path.parent "/c") = some parent ∧
      disk₁.find? (Path.target "/c") = some entry ∧
      disk₁.Holds parent.sector slot entry ∧ disk₁.header? entry.sector = some header ∧
      volume₂.perform (.remove "/c") disk₂ = .ok (.done, volume₂) disk₃ ∧
      disk.Restored disk₃ parent.sector ∧
      volume₂.perform (.create "/c" 10) disk₃ = .ok (.done, volume₂) disk₄ ∧
      disk₄.Holds parent.sector slot entry ∧ disk₄.header? entry.sector = some header ∧
      disk₄.freeMap? = disk₁.freeMap? := by
  have ends : (Disk.blank 20).look (do
      let (volume : Volume) ← Volume.format
      let (_, volume) ← volume.perform (.create "/c" 10)
      let (_, volume) ← volume.perform (.openPath "/c")
      let (_, volume) ← volume.perform (.write 1 [1, 2, 3])
      let (_, volume) ← volume.perform (.close 1)
      return volume.descriptors) = some [] := by decide +kernel
  obtain ⟨volume, disk, format, ends⟩ := Disk.exists_of_look_bind ends
  obtain ⟨⟨answer, volume₁⟩, disk₁, create, ends⟩ := Disk.exists_of_look_bind ends
  obtain ⟨⟨opened, volume₂⟩, disk₂, openPath, ends⟩ := Disk.exists_of_look_bind ends
  obtain ⟨⟨written, volume₃⟩, disk₃, write, ends⟩ := Disk.exists_of_look_bind ends
  obtain ⟨⟨closed, volume₄⟩, disk₄, close, ends⟩ := Disk.exists_of_look_bind ends
  have none : volume₄.descriptors = [] := Option.some.inj ends
  have run : Run 20 [] volume disk := .format (Disk.sound_blank (by decide)) format
  have made : Run 20 [.request (.create "/c" 10)] volume₁ disk₁ := .answer run trivial create
  obtain ⟨c, map, m, -⟩ := run.mounted (by decide) (by decide)
  obtain ⟨slots, root⟩ := m.laidOut.valid.tree.root
  have there : disk.toNamespace (Path.parent "/c") = some (.directory slots) := by
    rw [m.toNamespace_eq, show Path.parent "/c" = [] by decide +kernel]
    exact root
  have opens : volume₁.act (.request (.openPath "/c")) disk₁ = .ok (opened, volume₂) disk₂ :=
    openPath
  have writes : volume₂.act (.request (.write 1 [1, 2, 3])) disk₂ = .ok (written, volume₃) disk₃ :=
    write
  have closes : volume₃.act (.request (.close 1)) disk₃ = .ok (closed, volume₄) disk₄ := close
  have same : disk₂.toNamespace = disk₁.toNamespace := by
    obtain ⟨c₁, map₁, m₁, -⟩ := made.mounted (by decide) (by decide)
    exact m₁.names_of_opened opens
  have first : Interlude volume₁ disk₁ volume₂ disk₂ := .answer .none (by trivial) opens same
  have second : Interlude volume₁ disk₁ volume₃ disk₃ :=
    .answer first (by trivial) writes (by trivial)
  have between : Interlude volume₁ disk₁ volume₄ disk₄ :=
    .answer second (by trivial) closes (by trivial)
  have closed (sector : Nat) : volume₄.isOpen sector = false := by
    rw [Volume.isOpen, none]
    rfl
  exact ⟨volume, disk, slots, answer, volume₁, disk₁, volume₄, disk₄, run, there, create, between,
    fun entry _ => closed entry.sector,
    run.remove_undoes_make (by decide) (by decide) rfl there create between fun entry _ =>
      closed entry.sector⟩

end SectorFS
