import SectorFS.Proofs.Volume.Relink
import SectorFS.Volume.Create

/-!
# Making one node

`reserveNode` finds everything an insertion needs (`Reserved.exists_insertion`) or refuses, and a
refusal leaves the disk alone. What is found is then written, first the sectors of the new node,
then the table and the map: `tries_addFile`, `tries_addDirectory`. The map's file was read by then,
so that no read can part the table from the map.
-/

namespace SectorFS

open Catalog Volume

/-- What `reserveNode` has found: a free header sector, a slot, and free sectors for the data. -/
structure Reserved (map : FreeMap) (directory : Directory) (name : String) (size : Nat)
    (isDirectory : Bool) (found : NewNode) : Prop where
  claim : map.claim? = some (found.sector, map.mark found.sector true)
  slot : directory.add name found.sector isDirectory = .ok found.directory
  extent : Header.empty.allocate (map.mark found.sector true) size = .ok (found.header, found.map)

theorem reserveNode_cases (map : FreeMap) (directory : Directory) (name : String) (size : Nat)
    (isDirectory : Bool) :
    (∃ found, reserveNode map directory name size isDirectory = .ok found ∧
      Reserved map directory name size isDirectory found) ∨
    (∃ cause, reserveNode map directory name size isDirectory = .error (.error cause)) ∨
    reserveNode map directory name size isDirectory = .error (.fault .addOverflow) ∧
      Size.limit ≤ size + sectorSize := by
  unfold reserveNode
  cases hclaim : map.claim? with
  | none => exact .inr (.inl ⟨_, rfl⟩)
  | some claimed =>
    obtain ⟨sector, claimedMap⟩ := claimed
    obtain ⟨-, -, -, rfl⟩ := FreeMap.claim?_eq_some hclaim
    cases hadd : directory.add name sector isDirectory with
    | error cause =>
      simp only [hadd]
      exact .inr (.inl ⟨cause, rfl⟩)
    | ok directory' =>
      cases hextent : Header.empty.allocate (map.mark sector true) size with
      | error e =>
        simp only [hadd, hextent]
        rcases Header.allocate_empty_error hextent with ⟨rfl, -⟩ | ⟨rfl, large⟩
        · exact .inr (.inl ⟨_, rfl⟩)
        · exact .inr (.inr ⟨rfl, large⟩)
      | ok taken =>
        obtain ⟨header, taken⟩ := taken
        simp only [hadd, hextent]
        exact .inl ⟨⟨sector, header, directory', taken⟩, rfl, hclaim, hadd, hextent⟩

namespace Catalog

variable {c : Catalog} {n p : Nat} {store : Store} {map map' : FreeMap} {volume : Volume}
variable {dir : Directory} {name : String} {size : Nat} {isDirectory : Bool} {found : NewNode}

/-- The insertion is the one that was reserved. -/
structure Insertion.Reserves (ins : Insertion n c) (p : Nat) (dir : Directory) (name : String)
    (size : Nat) (isDirectory : Bool) (found : NewNode) : Prop where
  parent : ins.parent = p
  old : ins.old = dir
  new : ins.new = found.directory
  entry : ins.entry = ⟨name, found.sector, isDirectory⟩
  header : found.header = ins.node.extent.header
  size : ins.node.extent.size = size
  table : ins.node.table = if isDirectory then some (.new directoryCapacity) else none
  count : found.map.sectorCount = n
  uses : ∀ i, found.map.Uses i ↔ ins.result.Owns i

/-- What was reserved can be inserted. A directory is reserved at the size of its table. -/
theorem LaidOut.exists_insertion (l : c.LaidOut n store map) (hp : c.table? p = some dir)
    (r : Reserved map dir name size isDirectory found)
    (table : isDirectory = true → size = directoryCapacity * slotSize) :
    ∃ ins : Insertion n c, ins.Reserves p dir name size isDirectory found := by
  obtain ⟨lt, free, -, -⟩ := FreeMap.claim?_eq_some r.claim
  have small := l.small
  have marked : (map.mark found.sector true).sectorCount = n := by
    simp [FreeMap.sectorCount_mark, l.count]
  obtain ⟨extent, header, extentSize, -, takes⟩ :=
    Header.exists_extent (by rw [marked]; exact small) r.extent
  have limit : found.sector < Word.sectorLimit := by
    rw [l.count] at lt
    simp only [diskLimit, Word.sectorLimit] at *
    omega
  obtain ⟨slot, slot_lt, empty, lowest, valid_name, fresh_name, capacity, tidy, held⟩ :=
    (l.valid.tidy p dir hp).add_ok r.slot limit
  have untaken : ∀ i ∈ extent.sectors, i < n ∧ i ≠ found.sector ∧ ¬ c.Owns i := by
    intro i hi
    obtain ⟨lt', free'⟩ := takes.free i hi
    rw [FreeMap.uses_mark_true lt, not_or, l.uses] at free'
    exact ⟨marked ▸ lt', free'⟩
  let ins : Insertion n c :=
    { parent := p
      old := dir
      new := found.directory
      slot
      entry := ⟨name, found.sector, isDirectory⟩
      node := ⟨extent, if isDirectory then some (.new directoryCapacity) else none⟩
      table := hp
      slot_lt, empty, lowest, valid_name, fresh_name, tidy, capacity, held
      kind := by cases isDirectory <;> rfl
      bare := by
        intro made hmade
        cases isDirectory with
        | false => cases hmade
        | true =>
          obtain rfl := Option.some.inj hmade
          exact ⟨rfl, extentSize.trans (table rfl)⟩
      apart := fun hm => (untaken _ hm).2.1 rfl
      free := by
        intro i hi
        rcases List.mem_cons.mp hi with rfl | hi
        · exact ⟨l.count ▸ lt, fun own => free ((l.uses _).mpr own)⟩
        · exact ⟨(untaken i hi).1, (untaken i hi).2.2⟩ }
  refine ⟨ins, rfl, rfl, rfl, rfl, header, extentSize, rfl, takes.sectorCount_eq.trans marked,
    fun i => ?_⟩
  rw [takes.uses, FreeMap.uses_mark_true lt, ins.owns_result, Extent.owned, List.mem_cons, l.uses]
  exact ⟨fun h => h.elim (fun hi => .inl (.inr hi)) (·.imp_left .inl),
    fun h => h.elim (·.elim (fun hi => .inr (.inl hi)) .inl) fun own => .inr (.inr own)⟩

/-- The writes put the insertion in place, together with the map that is true to it. -/
structure Insertion.Placed (ins : Insertion n c) (store : Store) (ws : Writes) (map' : FreeMap) :
    Prop where
  laidOut : ins.result.LaidOut n (store.after ws) map'
  kept : c.Kept store ws ins.result
  relinks : c.Relinks ins.parent ws
  tableFirst : c.TableFirst ins.parent ws

/-- What is written once the sectors of the new node are in place: the table, then the map. Nothing
of this can fail when the sectors of the map were read before. -/
theorem Insertion.settles_link {K : Nat → Prop} (ins : Insertion n c) (l : c.LaidOut n store map)
    (known : volume.Over c n) {mapExtent : Extent}
    (hmap : c freeMapSector = some ⟨mapExtent, none⟩) (quiet : ∀ s ∈ mapExtent.data, K s)
    {extent : Extent} (hparent : c ins.parent = some ⟨extent, some ins.old⟩) {file : File}
    (hf : file.header = extent.header) {ws : Writes}
    (own : ∀ w ∈ ws, w.1 ∈ ins.node.extent.owned ins.entry.sector)
    (stored : ins.node.StoredAt (store.after ws) ins.entry.sector)
    (count : map'.sectorCount = n) (uses : ∀ i, map'.Uses i ↔ ins.result.Owns i) :
    ∃ vs us, Settles n (store.after ws) K (ins.new.store file) (.ok ()) vs ∧
      Settles n ((store.after ws).after vs) K (volume.storeMap map') (.ok ()) us ∧
      (∀ w ∈ vs ++ us, c.Owns w.1) ∧ ins.Placed store (ws ++ (vs ++ us)) map' := by
  obtain ⟨vs, runsTable, targets, table⟩ :=
    l.settles_storeTable hparent ins.capacity hf (store.after ws)
  obtain ⟨us, runsMap, targets', mapBytes⟩ :=
    l.settles_storeMap known hmap quiet count ((store.after ws).after vs)
  have free : ∀ w ∈ ws, ¬ c.Owns w.1 := fun w hw => (ins.free _ (own w hw)).2
  have owned : ∀ w ∈ vs ++ us, c.Owns w.1 := by
    intro w hw
    rcases List.mem_append.mp hw with hw | hw
    · exact owns_data hparent (targets w hw)
    · exact owns_data hmap (targets' w hw)
  have linked : c.Rewrites ins.parent (vs ++ us) :=
    .append (.of_table hparent targets) (.of_map hmap targets')
  have relinks : c.Relinks ins.parent (ws ++ (vs ++ us)) := .append (.of_free free) linked.relinks
  have after : store.after (ws ++ (vs ++ us)) = ((store.after ws).after vs).after us := by
    simp [Store.after_append]
  have away : ∀ w ∈ vs ++ us, w.1 ∉ ins.node.extent.owned ins.entry.sector :=
    fun w hw hm => (ins.free _ hm).2 (owned w hw)
  have apart : ins.parent ≠ freeMapSector := by
    intro same
    rw [same, hmap] at hparent
    cases hparent
  refine ⟨vs, us, runsTable, runsMap, owned, ?_, ?_, relinks, ?_⟩
  · apply ins.laidOut l relinks _ _ _ count uses
    · rw [Store.after_append]
      exact stored.after away
    · intro extent' hparent'
      obtain rfl := extent_unique hparent hparent'
      rw [after, ← table]
      exact l.bytes_after_data hmap hparent apart.symm targets' _
    · intro extent' hmap'
      obtain rfl := extent_unique hmap hmap'
      rw [after]
      exact mapBytes
  · apply ins.kept l relinks
    intro w hw
    rcases List.mem_append.mp hw with hw | hw
    · exact ins.owns_result.mpr (.inl (own w hw))
    · exact ins.owns_result.mpr (.inr (owned w hw))
  · cases vs with
    | nil =>
      have bytes := ((l.write_free free).stored _ _ hparent).table _ rfl
      rw [← Store.after_nil (store.after ws), table] at bytes
      have same := congrArg Directory.ofBytes bytes
      rw [Directory.ofBytes_toBytes, Directory.ofBytes_toBytes] at same
      exact absurd same ins.new_ne_old
    | cons w vs => exact .of_append free hparent (targets w List.mem_cons_self)

theorem Insertion.lt (ins : Insertion n c) : ∀ i ∈ ins.node.extent.owned ins.entry.sector, i < n :=
  fun i hi => (ins.free i hi).1

section Add

variable {K : Nat → Prop} {Q : Writes → Prop}

theorem runs_addFile_of_error {file : File} {e : Failure} (l : c.LaidOut n store map)
    (known : volume.Over c n) (h : reserveNode map dir name size false = .error e) :
    Runs n store (volume.addFile file dir name size) (.error e) [] := by
  unfold addFile
  refine .andThen (l.runs_loadMap known) ?_
  rw [h]
  exact .stop (.lift _)

/-- Making a file inserts a node without a table. Its data sectors keep what they held. It can fail
before it has written anything, and not later. -/
theorem tries_addFile (l : c.LaidOut n store map) (known : volume.Over c n) {extent : Extent}
    (hp : c p = some ⟨extent, some dir⟩) {file : File} (hf : file.header = extent.header)
    (h : reserveNode map dir name size false = .ok found)
    (r : Reserved map dir name size false found) (start : Q []) :
    ∃ (ins : Insertion n c) (ws : Writes),
      Tries n store K (volume.addFile file dir name size) (.ok ()) ws Q ∧
      ins.Reserves p dir name size false found ∧ ins.Placed store ws found.map ∧
      ∀ w ∈ ws, w.1 ∉ ins.node.extent.data := by
  obtain ⟨ins, res⟩ := l.exists_insertion (table?_eq_some_iff.mpr ⟨extent, hp⟩) r nofun
  obtain ⟨mapExtent, hmap, -⟩ := l.valid.map
  have sector : found.sector = ins.entry.sector := by rw [res.entry]
  obtain ⟨ws, runsHeader, stored, targets⟩ := Extent.settles_header ins.apart ins.lt store
  have placed : ins.node.StoredAt (store.after ws) ins.entry.sector := by
    refine ⟨stored, fun made hmade => ?_⟩
    rw [res.table] at hmade
    cases hmade
  obtain ⟨vs, us, runsTable, runsMap, owned, done⟩ := ins.settles_link
    (K := fun s => K s ∨ s ∈ mapExtent.data) l known hmap (fun s hs => .inr hs)
    (by rw [res.parent, res.old]; exact hp) hf (fun w hw => (targets w hw).1) placed res.count
    res.uses
  rw [res.new] at runsTable
  refine ⟨ins, ws ++ (vs ++ us), ?_, res, done, ?_⟩
  · unfold addFile
    refine .scan start (l.scans_loadMap known hmap) (.of_settles ?_)
    rw [h]
    refine .andThen (.lift _) ?_
    rw [res.header, sector]
    exact .step runsHeader (.step runsTable runsMap)
  · intro w hw hm
    rcases List.mem_append.mp hw with hw | hw
    · exact (targets w hw).2 hm
    · exact (ins.free _ (Extent.mem_owned_of_mem_data hm)).2 (owned w hw)

theorem runs_addDirectory_of_error {file : File} {e : Failure} (l : c.LaidOut n store map)
    (known : volume.Over c n)
    (h : reserveNode map dir name (directoryCapacity * slotSize) true = .error e) :
    Runs n store (volume.addDirectory file dir name) (.error e) [] := by
  unfold addDirectory
  refine .andThen (l.runs_loadMap known) ?_
  rw [Directory.fileSize_capacity]
  refine .andThen (.lift _) ?_
  rw [h]
  exact .stop (.lift _)

/-- Making a directory inserts a node with an empty table. It can fail as long as it has written to
sectors without an owner only. -/
theorem tries_addDirectory (l : c.LaidOut n store map) (known : volume.Over c n) {extent : Extent}
    (hp : c p = some ⟨extent, some dir⟩) {file : File} (hf : file.header = extent.header)
    (h : reserveNode map dir name (directoryCapacity * slotSize) true = .ok found)
    (r : Reserved map dir name (directoryCapacity * slotSize) true found)
    (free : ∀ us : Writes, (∀ w ∈ us, ¬ c.Owns w.1) → Q us) :
    ∃ (ins : Insertion n c) (ws : Writes),
      Tries n store K (volume.addDirectory file dir name) (.ok ins.entry.sector) ws Q ∧
      ins.Reserves p dir name (directoryCapacity * slotSize) true found ∧
      ins.Placed store ws found.map := by
  obtain ⟨ins, res⟩ := l.exists_insertion (table?_eq_some_iff.mpr ⟨extent, hp⟩) r fun _ => rfl
  obtain ⟨mapExtent, hmap, -⟩ := l.valid.map
  have sector : found.sector = ins.entry.sector := by rw [res.entry]
  obtain ⟨ws, runsHeader, stored, targets⟩ := Extent.settles_header ins.apart ins.lt store
  let made : File := ⟨ins.entry.sector, ins.node.extent.header, 0⟩
  have runsLoad : Runs n (store.after ws) (File.load ins.entry.sector) (.ok made) [] :=
    Extent.runs_file ins.lt stored
  have same : made.header = ins.node.extent.header := rfl
  have inside : ∀ i ∈ ins.node.extent.sectors, i < n := fun i hi =>
    ins.lt i (List.mem_cons_of_mem _ hi)
  obtain ⟨xs, runsNew, targetsNew, newBytes⟩ :=
    Extent.settles_table same inside (Directory.capacity_new _) res.size (store.after ws)
  have placed : ins.node.StoredAt (store.after (ws ++ xs)) ins.entry.sector := by
    rw [Store.after_append]
    refine ⟨stored.after_of_data ins.apart targetsNew, fun dir' hdir' => ?_⟩
    rw [res.table] at hdir'
    obtain rfl := Option.some.inj hdir'
    exact newBytes
  have own : ∀ w ∈ ws ++ xs, w.1 ∈ ins.node.extent.owned ins.entry.sector := by
    intro w hw
    rcases List.mem_append.mp hw with hw | hw
    · exact (targets w hw).1
    · exact Extent.mem_owned_of_mem_data (targetsNew w hw)
  obtain ⟨vs, us, runsTable, runsMap, -, done⟩ := ins.settles_link
    (K := fun s => K s ∨ s ∈ mapExtent.data) l known hmap (fun s hs => .inr hs)
    (by rw [res.parent, res.old]; exact hp) hf own placed res.count res.uses
  rw [res.new, Store.after_append] at runsTable
  rw [Store.after_append] at runsMap
  refine ⟨ins, ws ++ xs ++ (vs ++ us), ?_, res, done⟩
  unfold addDirectory
  refine .scan (free [] nofun) (l.scans_loadMap known hmap) ?_
  rw [Directory.fileSize_capacity]
  refine .andThen (.lift _) ?_
  rw [h]
  refine .andThen (.lift _) ?_
  rw [res.header, sector, List.append_assoc]
  -- The header just written is read again, which is the only read that can fail from here on.
  have unowned : Q (ws ++ []) := free _ fun w hw =>
    (ins.free _ (targets w (by simpa using hw)).1).2
  exact .step (.of_settles runsHeader) (.andThen (.quiet runsLoad unowned) (.of_settles
    (.step runsNew (.step runsTable (.finish runsMap (.done _))))))

end Add

end Catalog

end SectorFS
