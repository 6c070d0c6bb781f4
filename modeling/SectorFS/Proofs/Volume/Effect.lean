import SectorFS.Proofs.Volume.Descriptors
import SectorFS.Proofs.Volume.Format
import SectorFS.Proofs.Volume.Remove
import SectorFS.Proofs.Volume.Steps

/-!
# The effect of an action

Every action on a volume over a catalog ends, on every sound disk, with an `Effect`: the catalog
that is then on the disk, and what became of the two views (`runs_act`).
-/

namespace SectorFS.Catalog

open Volume

variable {c c' : Catalog} {n : Nat} {store : Store} {map map' : FreeMap} {volume : Volume}
variable {ws : Writes} {action : Action}

/-- The files and descriptors, as a catalog and a volume over it have them. -/
def view (c : Catalog) (store : Store) (volume : Volume) : View := ⟨c.files store, volume.under⟩

/-- What an action comes to that ends with `result` after the writes `ws`. -/
structure Effect (c : Catalog) (n : Nat) (store : Store) (volume : Volume) (action : Action)
    (result : Except Failure (Answer × Volume)) (ws : Writes) (c' : Catalog) (map' : FreeMap) :
    Prop where
  laidOut : c'.LaidOut n (store.after ws) map'
  known : (volume.next result).Over c' n
  nextId_le : (volume.next result).nextId ≤
    max 1 volume.nextId + if action.opens then 1 else 0
  names : action.Absolute → (action.opens = true → volume.nextId < lastId) →
    c.toNamespace.Step c'.toNamespace action (result.map Prod.fst)
  contents : (c.view store volume).Step (c'.view (store.after ws) (volume.next result)) action
    (result.map Prod.fst)
  spared : ∀ path size answer s extent, action = .request (.create path size) →
    result = .ok answer → c'.find? (Path.target path) = some s → c' s = some ⟨extent, none⟩ →
    ∀ w ∈ ws, w.1 ∉ extent.data
  faults : ∀ fault, result = .error (.fault fault) → action.Faults fault

/-- An action that writes nothing. -/
theorem Effect.quiet {result : Except Failure (Answer × Volume)} (l : c.LaidOut n store map)
    (known : (volume.next result).Over c n)
    (nextId_le : (volume.next result).nextId ≤
      max 1 volume.nextId + if action.opens then 1 else 0)
    (names : action.Absolute → (action.opens = true → volume.nextId < lastId) →
      c.toNamespace.Step c.toNamespace action (result.map Prod.fst))
    (contents : (c.view store volume).Step (c.view store (volume.next result)) action
      (result.map Prod.fst))
    (faults : ∀ fault, result = .error (.fault fault) → action.Faults fault) :
    c.Effect n store volume action result [] c map where
  laidOut := l
  known := known
  nextId_le := nextId_le
  names := names
  contents := contents
  spared := nofun
  faults := faults

/-- An answer that costs nothing, or concerns the volume alone. -/
theorem Effect.answered {answer : Answer} {volume' : Volume} (l : c.LaidOut n store map)
    (known : volume'.Over c n) (same : volume'.nextId = volume.nextId)
    (names : c.toNamespace.Step c.toNamespace action (.ok answer))
    (contents : (c.view store volume).Step (c.view store volume') action (.ok answer)) :
    c.Effect n store volume action (.ok (answer, volume')) [] c map := by
  refine .quiet l known ?_ (fun _ _ => names) contents nofun
  change volume'.nextId ≤ _
  omega

/-- A refusal before anything was done. -/
theorem Effect.refused {cause : Error} (l : c.LaidOut n store map) (known : volume.Over c n)
    (names : c.toNamespace.Step c.toNamespace action (.error (.error cause)))
    (contents : (c.view store volume).Step (c.view store volume) action (.error (.error cause))) :
    c.Effect n store volume action (.error (.error cause)) [] c map :=
  .quiet l known (Nat.le_add_right_of_le (Nat.le_max_right _ _)) (fun _ _ => names) contents nofun

/-- An action that makes directories on a way and then fails. -/
theorem Effect.failed {e : Failure} {path : List String} (known : volume.Over c n)
    (grew : c.Grew n store c.toNamespace path ws c' map')
    (names : action.Absolute → (action.opens = true → volume.nextId < lastId) →
      c.toNamespace.Step c'.toNamespace action (.error e))
    (contents : ∀ v : View, v.Step v action (.error e))
    (faults : ∀ fault, e = .fault fault → action.Faults fault) :
    c.Effect n store volume action (.error e) ws c' map' where
  laidOut := grew.laidOut
  known := known.kept grew.kept
  nextId_le := Nat.le_add_right_of_le (Nat.le_max_right _ _)
  names := names
  contents := by
    have same : c'.view (store.after ws) volume = c.view store volume := by
      simp [view, grew.files]
    change (c.view store volume).Step (c'.view (store.after ws) volume) action (.error e)
    rw [same]
    exact contents _
  spared := nofun
  faults fault h := faults fault (Except.error.inj h)

/-- An action that makes directories on a way and is then refused. -/
theorem Effect.grew {cause : Error} {path : List String} (known : volume.Over c n)
    (grew : c.Grew n store c.toNamespace path ws c' map')
    (names : action.Absolute → (action.opens = true → volume.nextId < lastId) →
      c.toNamespace.Step c'.toNamespace action (.error (.error cause)))
    (contents : ∀ v : View, v.Step v action (.error (.error cause))) :
    c.Effect n store volume action (.error (.error cause)) ws c' map' :=
  .failed known grew names contents nofun

/-- A relative path stops an action before it does anything. -/
theorem Effect.relative {path : String} (l : c.LaidOut n store map) (known : volume.Over c n)
    (takes : action.path? = some path) (relative : ¬ Path.Absolute path)
    (contents : ∀ v : View, v.Step v action (.error (.fault (.relativePath path)))) :
    c.Effect n store volume action (.error (.fault (.relativePath path))) [] c map := by
  apply Effect.failed known (.refl l .root)
  · intro absolute
    exact absurd (absolute path takes) relative
  · exact contents
  · rintro fault ⟨⟩
    exact .relative takes relative

theorem Made.effect {path : String} {item : Item} {answer : Answer}
    (known : volume.Over c n)
    (made : c.Made n store (Path.parent path) (Path.leaf path) item ws c' map')
    (names : c.toNamespace.Step c'.toNamespace action (.ok answer))
    (contents : (c.view store volume).Step (c'.view (store.after ws) volume) action (.ok answer))
    (spared : ∀ path size s extent, action = .request (.create path size) →
      c'.find? (Path.target path) = some s → c' s = some ⟨extent, none⟩ →
      ∀ w ∈ ws, w.1 ∉ extent.data) :
    c.Effect n store volume action (.ok (answer, volume)) ws c' map' where
  laidOut := made.laidOut
  known := known.kept made.kept
  nextId_le := Nat.le_add_right_of_le (Nat.le_max_right _ _)
  names _ _ := names
  contents := contents
  spared path size _ s extent h _ := spared path size s extent h
  faults := nofun

/-! ## Making -/

theorem runs_act_create (l : c.LaidOut n store map) (known : volume.Over c n) (path : String)
    (size : Nat) :
    ∃ result ws c' map', Runs n store (volume.act (.request (.create path size))) result ws ∧
      c.Effect n store volume (.request (.create path size)) result ws c' map' := by
  by_cases absolute : Path.Absolute path
  · obtain ⟨ws, c', map', -, ⟨s, extent, run, rfl, made, hs, spared, new, files⟩ |
      ⟨e, k, run, grew, cause⟩⟩ := tries_create (K := fun _ => True) l known absolute size
    · have there := congrFun files (Path.target path)
      rw [Path.target, Function.update_self] at there
      obtain ⟨found, -⟩ := files_eq_some_iff.mp there
      refine ⟨_, ws, c', map', .finish run.runs (.done _), made.effect known made.added ?_ ?_⟩
      · refine ⟨new, s, _, ?_, rfl, files⟩
        rw [List.length_take, Store.length_bytes]
        exact Nat.min_eq_left extent.size_le
      · rintro _ _ t extent' ⟨⟩ ht hextent
        rw [Path.target, found, Option.some.injEq] at ht
        subst ht
        rw [hs] at hextent
        cases hextent
        exact spared
    · refine ⟨_, ws, c', map', .stop run.runs, .failed known grew (fun _ _ => ⟨k, grew.grown⟩)
        (fun v => rfl) ?_⟩
      rintro fault rfl
      obtain ⟨cause, ⟨⟩⟩ | ⟨⟨⟩, large⟩ := cause
      exact .large large
  · exact ⟨_, [], c, map, .stop (.stop (runs_placeFor_relative absolute)),
      .relative l known rfl absolute fun v => rfl⟩

theorem runs_act_makeDirectory (l : c.LaidOut n store map) (known : volume.Over c n)
    (path : String) :
    ∃ result ws c' map', Runs n store (volume.act (.request (.makeDirectory path))) result ws ∧
      c.Effect n store volume (.request (.makeDirectory path)) result ws c' map' := by
  by_cases absolute : Path.Absolute path
  · obtain ⟨ws, c', map', -, ⟨run, made, files⟩ | ⟨cause, k, run, grew⟩⟩ :=
      tries_makeDirectory (K := fun _ => True) l known absolute
    · refine ⟨_, ws, c', map', .finish run.runs (.done _), made.effect known made.added ?_ nofun⟩
      change c'.view (store.after ws) volume = c.view store volume
      simp [view, files]
    · exact ⟨_, ws, c', map', .stop run.runs, .grew known grew (fun _ _ => ⟨k, grew.grown⟩)
        fun v => rfl⟩
  · exact ⟨_, [], c, map, .stop (.stop (runs_placeFor_relative absolute)),
      .relative l known rfl absolute fun v => rfl⟩

/-! ## Descriptors -/

theorem under_opened_eq (volume : Volume) (d : Descriptor) :
    (volume.opened d).under = Function.update volume.under volume.nextId (some d) := by
  funext j
  simp [under_opened, Function.update_apply]

theorem under_seek_eq {id : Nat} {d : Descriptor} (hd : volume.under id = some d)
    (position : Nat) : (volume.setFile id (d.file.seek position)).under =
      Function.update volume.under id (some (d.seek position)) := by
  funext j
  rw [under_setFile, Function.update_apply, hd]
  rfl

theorem under_close_eq (volume : Volume) (id : Nat) :
    ({ volume with descriptors := volume.descriptors.filter (·.1 != id) } : Volume).under =
      Function.update volume.under id none := by
  funext j
  simp [under_close, Function.update_apply]

/-- A descriptor for a file shows the bytes at some path. -/
theorem LaidOut.shows (l : c.LaidOut n store map) (known : volume.Over c n) {id : Nat}
    {d : Descriptor} (hd : volume.under id = some d) (plain : d.isDirectory = false) :
    ∃ path extent, c d.file.sector = some ⟨extent, none⟩ ∧ c.find? path = some d.file.sector ∧
      (c.view store volume).Shows d path ((store.bytes extent.data).take extent.size) ∧
      ((store.bytes extent.data).take extent.size).length = d.file.length := by
  obtain ⟨ne, -, ⟨extent, table⟩, hnode, hf, kind⟩ := known.descriptors id d hd
  obtain rfl : table = none := by simpa using kind.trans plain
  obtain ⟨path, hpath⟩ := (l.valid.reached _ _ hnode).resolve_left ne
  refine ⟨path, extent, hnode, hpath, files_of_find? hpath hnode, ?_⟩
  rw [List.length_take, Store.length_bytes, File.length, hf]
  exact Nat.min_eq_left extent.size_le

theorem Valid.names_iff (v : c.Valid n) {path : String} :
    c.toNamespace.Names path ↔ ∃ s, c.target? path = some s := by
  rw [Namespace.Names, target?, ← v.tree.child]
  by_cases root : path = "/"
  · simp [root]
  · rw [if_neg root]
    constructor
    · rintro (h | ⟨item, h⟩)
      · exact absurd h root
      · obtain ⟨s, -, hs, -, -⟩ := toNamespace_eq_some_iff.mp h
        exact ⟨s, hs⟩
    · rintro ⟨s, hs⟩
      obtain ⟨-, node, hnode⟩ := v.exists_node_of_find? hs
      exact .inr ⟨node.item, toNamespace_of_find? hs hnode⟩

theorem runs_act_openPath (l : c.LaidOut n store map) (known : volume.Over c n) (path : String) :
    ∃ result ws c' map', Runs n store (volume.act (.request (.openPath path))) result ws ∧
      c.Effect n store volume (.request (.openPath path)) result ws c' map' := by
  by_cases absolute : Path.Absolute path
  · rcases tries_openPath (K := fun _ => True) l known absolute with
      ⟨d, run, known', target, start, ⟨extent, table⟩, hnode, kind⟩ |
      ⟨missing, ws, c', map', cause, k, run, grew⟩
    · refine ⟨_, [], c, map, .andThen run (.done _), .quiet l known' ?_ ?_ ?_ nofun⟩
      · exact Nat.add_le_add_right (Nat.le_max_right _ _) 1
      · exact fun _ _ => ⟨rfl, l.valid.names_iff.mpr ⟨_, target⟩⟩
      · refine ⟨volume.nextId, d, rfl, known.under_nextId, start, fun plain => ?_, ?_⟩
        · obtain rfl : table = none := by simpa using kind.trans plain
          have away : path ≠ "/" := by
            rintro rfl
            obtain ⟨dir, root⟩ := l.valid.root
            have same : rootSector = d.file.sector := Option.some.inj target
            rw [table?, same, hnode] at root
            cases root
          rw [target?, if_neg away] at target
          exact ⟨_, files_of_find? target hnode⟩
        · exact congrArg _ (under_opened_eq volume d)
    · refine ⟨_, ws, c', map', .stop run.runs, .grew known grew (fun _ few => ⟨⟨k, grew.grown⟩, ?_⟩)
        fun v => rfl⟩
      rw [l.valid.names_iff, missing.resolve_left (Nat.not_le.mpr (few rfl))]
      simp
  · rcases runs_openPath_relative absolute with run | run
    · exact ⟨_, [], c, map, .stop run, .grew known (.refl l .root)
        (fun takes _ => absurd (takes path rfl) absolute) fun v => rfl⟩
    · exact ⟨_, [], c, map, .stop run, .relative l known rfl absolute fun v => rfl⟩

theorem runs_act_read (l : c.LaidOut n store map) (known : volume.Over c n) (id count : Nat) :
    ∃ result, Runs n store (volume.act (.request (.read id count))) result [] ∧
      c.Effect n store volume (.request (.read id count)) result [] c map := by
  cases hd : volume.under id with
  | none =>
    exact ⟨_, .stop (runs_read_closed hd count), .refused l known rfl ⟨hd, rfl⟩⟩
  | some d =>
    obtain ⟨node, hnode, reads⟩ := runs_read l known hd count
    obtain ⟨run, known'⟩ := reads _ rfl
    refine ⟨_, .andThen run (.done _), .answered l known' rfl rfl ?_⟩
    refine ⟨d, _, hd, rfl, fun plain => ?_, congrArg _ (under_seek_eq hd _)⟩
    obtain ⟨path, extent, hextent, -, shows, length⟩ := l.shows known hd plain
    rw [hnode, Option.some.injEq] at hextent
    subst hextent
    refine ⟨path, _, shows, ?_, ?_⟩
    · simp [List.length_take, List.length_drop]
    · rw [List.take_eq_take_iff, List.length_take, Nat.min_assoc, Nat.min_self]

theorem runs_act_write (l : c.LaidOut n store map) (known : volume.Over c n) (id : Nat)
    (data : List UInt8) :
    ∃ result ws, Runs n store (volume.act (.request (.write id data))) result ws ∧
      c.Effect n store volume (.request (.write id data)) result ws c map := by
  by_cases writable : ∃ d, volume.under id = some d ∧ d.isDirectory = false
  · obtain ⟨d, hd, plain⟩ := writable
    obtain ⟨extent, count, ws, hnode, hcount, run, known', targets, after⟩ :=
      runs_write l known hd plain data
    obtain ⟨path, extent', hextent, way, shows, length⟩ := l.shows known hd plain
    obtain rfl := extent_unique hnode hextent
    obtain ⟨ne, -⟩ := known.descriptors id d hd
    have files := l.files_write_data hnode way targets
    rw [after] at files
    rw [File.clip_eq_min, ← length] at hcount
    exact ⟨_, ws, .finish run (.done _),
      { laidOut := l.write_data hnode ne targets
        known := known'
        nextId_le := Nat.le_add_right_of_le (Nat.le_max_right _ _)
        names := fun _ _ => rfl
        contents :=
          ⟨d, path, _, count, hd, plain, shows, rfl, hcount, files, under_seek_eq hd _⟩
        spared := nofun
        faults := nofun }⟩
  · have closed (d : Descriptor) (hd : volume.under id = some d) : d.isDirectory = true := by
      by_contra plain
      exact writable ⟨d, hd, Bool.not_eq_true _ ▸ plain⟩
    obtain ⟨cause, run⟩ : ∃ cause, Runs n store (volume.write id data) (.error (.error cause)) [] :=
      runs_write_refused closed data
    exact ⟨_, [], .stop run, .refused l known rfl ⟨closed, rfl⟩⟩

theorem runs_act_seek (l : c.LaidOut n store map) (known : volume.Over c n) (id : Nat)
    {position : Nat} (small : position < Size.limit) :
    ∃ result, Runs n store (volume.act (.request (.seek id position))) result [] ∧
      c.Effect n store volume (.request (.seek id position)) result [] c map := by
  cases hd : volume.under id with
  | none =>
    have run : Runs n store (volume.act (.request (.seek id position)))
        (.error (.error (.badDescriptor id))) [] := by
      rw [act, perform, Volume.seek, descriptor_of_none hd]
      exact .stop (.liftError _)
    exact ⟨_, run, .refused l known rfl ⟨hd, rfl⟩⟩
  | some d =>
    have run : Runs n store (volume.act (.request (.seek id position)))
        (.ok (.done, volume.setFile id (d.file.seek position))) [] := by
      rw [act, perform, Volume.seek, descriptor_eq_ok_iff.mpr hd]
      exact .andThen (.liftError _) (.done _)
    exact ⟨_, run, .answered l (known.seek hd small) rfl rfl
      ⟨d, hd, congrArg _ (under_seek_eq hd position)⟩⟩

theorem runs_act_length (l : c.LaidOut n store map) (known : volume.Over c n) (id : Nat) :
    ∃ result, Runs n store (volume.act (.request (.length id))) result [] ∧
      c.Effect n store volume (.request (.length id)) result [] c map := by
  cases hd : volume.under id with
  | none =>
    have run : Runs n store (volume.act (.request (.length id)))
        (.error (.error (.badDescriptor id))) [] := by
      rw [act, perform, Volume.length, descriptor_of_none hd]
      exact .stop (.liftError _)
    exact ⟨_, run, .refused l known rfl ⟨hd, rfl⟩⟩
  | some d =>
    have run : Runs n store (volume.act (.request (.length id)))
        (.ok (.number d.file.length, volume)) [] := by
      rw [act, perform, Volume.length, descriptor_eq_ok_iff.mpr hd]
      exact .andThen (.liftError _) (.done _)
    refine ⟨_, run, .answered l known rfl rfl ⟨rfl, d, _, hd, rfl, fun plain => ?_⟩⟩
    obtain ⟨path, extent, -, -, shows, length⟩ := l.shows known hd plain
    exact ⟨path, _, shows, length⟩

theorem runs_act_close (l : c.LaidOut n store map) (known : volume.Over c n) (id : Nat) :
    ∃ result, Runs n store (volume.act (.request (.close id))) result [] ∧
      c.Effect n store volume (.request (.close id)) result [] c map := by
  cases hd : volume.under id with
  | none =>
    have run : Runs n store (volume.act (.request (.close id)))
        (.error (.error (.badDescriptor id))) [] := by
      rw [act, perform, Volume.close, descriptor_of_none hd]
      exact .stop (.liftError _)
    exact ⟨_, run, .refused l known rfl ⟨hd, rfl⟩⟩
  | some d =>
    have run : Runs n store (volume.act (.request (.close id))) (.ok (.done,
        { volume with descriptors := volume.descriptors.filter (·.1 != id) })) [] := by
      rw [act, perform, Volume.close, descriptor_eq_ok_iff.mpr hd]
      exact .andThen (.liftError _) (.done _)
    exact ⟨_, run, .answered l (known.close id) rfl rfl
      ⟨⟨d, hd⟩, congrArg _ (under_close_eq volume id)⟩⟩

/-! ## Removing and listing -/

theorem runs_act_remove (l : c.LaidOut n store map) (known : volume.Over c n) (path : String) :
    ∃ result ws c' map', Runs n store (volume.act (.request (.remove path))) result ws ∧
      c.Effect n store volume (.request (.remove path)) result ws c' map' := by
  by_cases absolute : Path.Absolute path
  · rcases runs_remove l known absolute with
      ⟨-, rem, ws, map', run, l', linked, way, name, closed⟩ | ⟨cause, -, run⟩
    · have there := toNamespace_of_find? (rem.find?_entry l.valid way) rem.node_at
      have files := rem.files_result l linked.relinks way
      have names := rem.namespace_result l.valid way
      rw [name] at there files names
      exact ⟨_, ws, rem.result, map', run,
        { laidOut := l'
          known := known.removal rem l.valid closed
          nextId_le := Nat.le_add_right_of_le (Nat.le_max_right _ _)
          names := fun _ _ => ⟨⟨_, there⟩, names⟩
          contents := ⟨rfl, files⟩
          spared := nofun
          faults := nofun }⟩
    · exact ⟨_, [], c, map, run, .refused l known rfl rfl⟩
  · exact ⟨_, [], c, map, .stop (runs_remove_relative absolute),
      .relative l known rfl absolute fun v => rfl⟩

theorem runs_act_list (l : c.LaidOut n store map) (known : volume.Over c n) (path : String) :
    ∃ result, Runs n store (volume.act (.request (.list path))) result [] ∧
      c.Effect n store volume (.request (.list path)) result [] c map := by
  by_cases absolute : Path.Absolute path
  · rcases runs_listings l known absolute with ⟨slots, -, there, -, run, -⟩ |
      ⟨missing, cause, run, -⟩
    · exact ⟨_, .andThen run (.done _), .answered l known rfl ⟨rfl, slots, there, rfl⟩ rfl⟩
    · exact ⟨_, .stop run, .refused l known ⟨rfl, missing⟩ rfl⟩
  · exact ⟨_, .stop (.stop (runs_directoryAt_relative absolute)),
      .relative l known rfl absolute fun v => rfl⟩

theorem runs_act_tree (l : c.LaidOut n store map) (known : volume.Over c n) (path : String) :
    ∃ result, Runs n store (volume.act (.request (.tree path))) result [] ∧
      c.Effect n store volume (.request (.tree path)) result [] c map := by
  by_cases absolute : Path.Absolute path
  · rcases runs_listings l known absolute with ⟨-, ways, -, -, -, run, -⟩ | ⟨-, cause, -, run⟩
    · rcases Namespace.listing_cases c.toNamespace (Path.components path) ways with
        ⟨text, ended⟩ | ended
      · rw [ended] at run
        exact ⟨_, .andThen run (.done _), .answered l known rfl rfl rfl⟩
      · rw [ended] at run
        refine ⟨_, .stop run, .failed known (.refl l .root) (fun _ _ => rfl) (fun v => rfl) ?_⟩
        rintro fault ⟨⟩
        exact .padding
    · exact ⟨_, .stop run, .refused l known rfl rfl⟩
  · exact ⟨_, .stop (.stop (runs_directoryAt_relative absolute)),
      .relative l known rfl absolute fun v => rfl⟩

theorem runs_act_freeCount (l : c.LaidOut n store map) (known : volume.Over c n) :
    ∃ result, Runs n store (volume.act (.request .freeCount)) result [] ∧
      c.Effect n store volume (.request .freeCount) result [] c map :=
  ⟨_, .andThen (runs_freeCount l known) (.done _), .answered l known rfl rfl rfl⟩

theorem runs_act_dump (l : c.LaidOut n store map) (known : volume.Over c n) :
    ∃ result, Runs n store (volume.act (.request .dump)) result [] ∧
      c.Effect n store volume (.request .dump) result [] c map := by
  obtain ⟨text, run⟩ := runs_dump l known
  exact ⟨_, .andThen run (.done _), .answered l known rfl rfl rfl⟩

theorem runs_act_remount (l : c.LaidOut n store map) :
    ∃ result, Runs n store (volume.act .remount) result [] ∧
      c.Effect n store volume .remount result [] c map := by
  obtain ⟨volume', run, known', none, one⟩ := runs_mount l
  refine ⟨_, .andThen .sync (.andThen run (.done _)), .quiet l known' ?_ (fun _ _ => rfl) ?_ nofun⟩
  · change volume'.nextId ≤ _
    omega
  · have closed : volume'.under = fun _ => Option.none := by
      funext id
      rw [under, none]
      rfl
    exact ⟨rfl, congrArg _ closed⟩

/-- Every action ends on every sound disk, with an effect. -/
theorem runs_act (l : c.LaidOut n store map) (known : volume.Over c n) (fits : action.Fits) :
    ∃ result ws c' map', Runs n store (volume.act action) result ws ∧
      c.Effect n store volume action result ws c' map' := by
  have quiet {action : Action} (h : ∃ result, Runs n store (volume.act action) result [] ∧
      c.Effect n store volume action result [] c map) :
      ∃ result ws c' map', Runs n store (volume.act action) result ws ∧
        c.Effect n store volume action result ws c' map' := by
    obtain ⟨result, run, effect⟩ := h
    exact ⟨result, [], c, map, run, effect⟩
  cases action with
  | remount => exact quiet (runs_act_remount l)
  | request request =>
    cases request with
    | create path size => exact runs_act_create l known path size
    | makeDirectory path => exact runs_act_makeDirectory l known path
    | openPath path => exact runs_act_openPath l known path
    | read id count => exact quiet (runs_act_read l known id count)
    | write id data =>
      obtain ⟨result, ws, run, effect⟩ := runs_act_write l known id data
      exact ⟨result, ws, c, map, run, effect⟩
    | seek id position => exact quiet (runs_act_seek l known id fits)
    | length id => exact quiet (runs_act_length l known id)
    | close id => exact quiet (runs_act_close l known id)
    | remove path => exact runs_act_remove l known path
    | list path => exact quiet (runs_act_list l known path)
    | tree path => exact quiet (runs_act_tree l known path)
    | freeCount => exact quiet (runs_act_freeCount l known)
    | dump => exact quiet (runs_act_dump l known)

end SectorFS.Catalog
