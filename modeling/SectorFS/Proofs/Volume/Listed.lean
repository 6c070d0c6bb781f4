import SectorFS.Proofs.Volume.Refinement

/-!
# Listings in a run

Every node that a disk shows was named in full by an action of its run (`Run.exists_origin`), since
no action makes a node that does not lie on its path. At every point of a run the short listing of a
path and the long one are of the tree that the disk shows, and both are refused alike where it shows
no directory (`Run.listings`).
-/

namespace SectorFS

/-- The path along which the action may make nodes. -/
def Action.makes? : Action → Option String
  | .request (.create path _) => some path
  | .request (.makeDirectory path) => some path
  | .request (.openPath path) => some path
  | _ => none

/-- What an action makes lies on its path. -/
theorem Namespace.Tree.prefix_of_step {T T' : Namespace} {n : Nat} (tree : T.Tree n)
    {action : Action} {outcome : Except Failure Answer} {way : List String} {item : Item}
    (step : T.Step T' action outcome) (absent : T way = none) (there : T' way = some item) :
    ∃ path ∈ action.makes?, way <+: Path.target path := by
  have same (h : T' = T) : False := by
    rw [h, absent] at there
    cases there
  have grown {path : String} (h : ∃ k, T.Grown ((Path.parent path).take k) T') :
      way <+: Path.target path := by
    obtain ⟨k, grown⟩ := h
    exact ((grown.prefix_of_new absent there).trans (List.take_prefix ..)).trans
      (List.prefix_append ..)
  cases action with
  | remount => exact (same step).elim
  | request request =>
    cases request with
    | create path size =>
      cases outcome with
      | ok => exact ⟨path, rfl, Made.prefix_of_new step absent there⟩
      | error => exact ⟨path, rfl, grown step⟩
    | makeDirectory path =>
      cases outcome with
      | ok => exact ⟨path, rfl, Made.prefix_of_new step absent there⟩
      | error => exact ⟨path, rfl, grown step⟩
    | openPath path =>
      cases outcome with
      | ok => exact (same step.1).elim
      | error => exact ⟨path, rfl, grown step.1⟩
    | remove path =>
      cases outcome with
      | ok =>
        obtain ⟨found, rfl⟩ := step
        obtain ⟨slots, directory, -⟩ := (tree.child _ _).mp found
        obtain ⟨before, there⟩ := exists_of_remove directory there
        rw [absent] at there
        cases there
      | error => exact (same step).elim
    | list =>
      cases outcome with
      | ok => exact (same step.1).elim
      | error => exact (same step.1).elim
    | _ => exact (same step).elim

namespace Volume

/-- A relative path, and a path to open when there are no more numbers, is refused before anything
is done. -/
theorem runs_act_early {n : Nat} {store : Store} {volume : Volume} {action : Action}
    (early : ¬ action.Absolute ∨ action.opens = true ∧ lastId ≤ volume.nextId) :
    ∃ e, Runs n store (volume.act action) (.error e) [] := by
  rcases early with relative | ⟨opens, last⟩
  · simp only [Action.Absolute, not_forall] at relative
    obtain ⟨path, takes, relative⟩ := relative
    cases action with
    | remount => cases takes
    | request request =>
      cases request with
      | create =>
        cases takes
        exact ⟨_, .stop (.stop (Catalog.runs_placeFor_relative relative))⟩
      | makeDirectory =>
        cases takes
        exact ⟨_, .stop (.stop (Catalog.runs_placeFor_relative relative))⟩
      | openPath =>
        cases takes
        rcases Catalog.runs_openPath_relative relative with run | run
        · exact ⟨_, .stop run⟩
        · exact ⟨_, .stop run⟩
      | remove =>
        cases takes
        exact ⟨_, .stop (Catalog.runs_remove_relative relative)⟩
      | list =>
        cases takes
        exact ⟨_, .stop (.stop (Catalog.runs_directoryAt_relative relative))⟩
      | tree =>
        cases takes
        exact ⟨_, .stop (.stop (Catalog.runs_directoryAt_relative relative))⟩
      | _ => cases takes
  · cases action with
    | remount => cases opens
    | request request =>
      cases request with
      | openPath path =>
        have run : Runs n store (volume.openPath path) (.error (.error .noDescriptor)) [] := by
          unfold openPath
          exact .guardFails last
        exact ⟨_, .stop run⟩
      | _ => cases opens

variable {n : Nat} {volume : Volume} {disk disk' : Disk} {c : Catalog} {map : FreeMap}

/-- What is new after an action lies on its path. -/
theorem Mounted.prefix_of_new {action : Action} {result : Except Failure (Answer × Volume)}
    {way : List String} {item : Item} (m : volume.Mounted disk n c map) (fits : action.Fits)
    (ends : volume.act action disk = ending result disk') (absent : disk.toNamespace way = none)
    (there : disk'.toNamespace way = some item) :
    ∃ path ∈ action.makes?, way <+: Path.target path := by
  by_cases early : ¬ action.Absolute ∨ action.opens = true ∧ lastId ≤ volume.nextId
  · obtain ⟨e, run⟩ : ∃ e, Runs n disk.store (volume.act action) (.error e) [] :=
      runs_act_early early
    obtain ⟨disk'', ends', wrote⟩ := run.ends m.sound
    obtain ⟨rfl, rfl⟩ := ending_inj (ends.symm.trans ends')
    rw [(m.of_wrote_nil wrote).toNamespace_eq, ← m.toNamespace_eq, absent] at there
    cases there
  · obtain ⟨absolute, few⟩ := not_or.mp early
    obtain ⟨result', disk'', ws, c', map', ends', -, effect, m'⟩ := m.act fits
    obtain ⟨rfl, rfl⟩ := ending_inj (ends.symm.trans ends')
    rw [m.toNamespace_eq] at absent
    rw [m'.toNamespace_eq] at there
    have step := effect.names (not_not.mp absolute)
      fun opens => Nat.lt_of_not_le fun last => few ⟨opens, last⟩
    exact m.laidOut.valid.tree.prefix_of_step step absent there

end Volume

/-- The program ends with `result` and writes nothing. -/
def Disk.Tells (disk : Disk) (program : DiskM α) (result : Except Failure α) : Prop :=
  ∃ seen, program disk = ending result seen ∧ disk.Untouched seen

theorem Runs.tells {n : Nat} {disk : Disk} {program : DiskM α} {result : Except Failure α}
    (run : Runs n disk.store program result []) (sound : disk.Sound n) :
    disk.Tells program result := by
  obtain ⟨seen, ends, wrote⟩ := run.ends sound
  exact ⟨seen, ends, wrote.untouched⟩

variable {n : Nat} {past : List Action} {volume : Volume} {disk : Disk} {path : String}

/-- All that a disk shows below the root was named on the path of an earlier action. -/
theorem Run.exists_origin (large : 15 ≤ n) (small : n ≤ diskLimit) (run : Run n past volume disk)
    {way : List String} {item : Item} (there : disk.toNamespace way = some item)
    (below : way ≠ []) : ∃ action ∈ past, ∃ path ∈ action.makes?, way <+: Path.target path := by
  have later {past : List Action} {volume : Volume} {disk disk' : Disk} {action : Action}
      {result : Except Failure (Answer × Volume)} {item : Item} (run : Run n past volume disk)
      (ih : ∀ {item : Item}, disk.toNamespace way = some item →
        ∃ action ∈ past, ∃ path ∈ action.makes?, way <+: Path.target path)
      (fits : action.Fits) (ends : volume.act action disk = ending result disk')
      (there : disk'.toNamespace way = some item) :
      ∃ other ∈ past ++ [action], ∃ path ∈ other.makes?, way <+: Path.target path := by
    cases before : disk.toNamespace way with
    | some item =>
      obtain ⟨earlier, mem, origin⟩ := ih before
      exact ⟨earlier, List.mem_append_left _ mem, origin⟩
    | none =>
      obtain ⟨c, map, m, -⟩ := run.mounted large small
      exact ⟨action, by simp, m.prefix_of_new fits ends before there⟩
  induction run generalizing item with
  | @format disk volume disk' sound ends =>
    have run : Run n [] volume disk' := .format sound ends
    obtain ⟨c, map, m, -, start⟩ := run.mounted large small
    rw [m.toNamespace_eq, (start rfl).1, Namespace.bare, if_neg below] at there
    cases there
  | @answer past volume disk action answer volume' disk' run fits ends ih =>
    have ends : volume.act action disk = ending (.ok (answer, volume')) disk' := ends
    exact later run ih fits ends there
  | @refusal past volume disk action cause disk' run fits ends ih =>
    have ends : volume.act action disk = ending (.error (.error cause)) disk' := ends
    exact later run ih fits ends there

/-- At a directory `list` gives the names in its slots and `tree` the listing of all that is below
it, which earlier actions named. Elsewhere both are refused, for one cause. Neither writes, and the
levels that bound the long listing make no difference to it. -/
theorem Run.listings (large : 15 ≤ n) (small : n ≤ diskLimit) (run : Run n past volume disk)
    (absolute : Path.Absolute path) :
    (∃ slots ways, disk.toNamespace (Path.components path) = some (.directory slots) ∧
      disk.toNamespace.Lists (Path.components path) slots ways ∧
      disk.Tells (volume.list path) (.ok (slots.filterMap id)) ∧
      disk.Tells (volume.tree path) (disk.toNamespace.listing (Path.components path) ways) ∧
      (∀ levels, n < levels → disk.Tells (do (← volume.directoryAt path).treeWithin levels 0)
        (disk.toNamespace.listing (Path.components path) ways)) ∧
      ∀ way ∈ ways, ∃ action ∈ past, ∃ text ∈ action.makes?, way <+: Path.target text) ∨
    ((∀ slots, disk.toNamespace (Path.components path) ≠ some (.directory slots)) ∧
      ∃ cause, disk.Tells (volume.list path) (.error (.error cause)) ∧
        disk.Tells (volume.tree path) (.error (.error cause))) := by
  obtain ⟨c, map, m, -⟩ := run.mounted large small
  have same := m.toNamespace_eq
  rcases Catalog.runs_listings m.laidOut m.known absolute with
    ⟨slots, ways, there, order, list, tree, deeper⟩ | ⟨missing, cause, list, tree⟩
  · rw [← same] at there order tree deeper
    have shows : disk.toNamespace.Tree n := by
      rw [same]
      exact m.laidOut.valid.tree
    have lists := shows.lists there order
    refine .inl ⟨slots, ways, there, lists, list.tells m.sound, tree.tells m.sound,
      fun levels enough => (deeper levels enough).tells m.sound, fun way mem => ?_⟩
    obtain ⟨name, rest, rfl, found⟩ := (lists.mem_iff way).mp mem
    obtain ⟨item, found⟩ := Option.isSome_iff_exists.mp found
    exact run.exists_origin large small found (by simp)
  · rw [← same] at missing
    exact .inr ⟨missing, cause, list.tells m.sound, tree.tells m.sound⟩

theorem listings_sample : ∃ volume disk, Run 40 sample volume disk ∧
    ((∃ slots ways, disk.toNamespace [] = some (.directory slots) ∧
      disk.toNamespace.Lists [] slots ways ∧
      disk.Tells (volume.list "/") (.ok (slots.filterMap id)) ∧
      disk.Tells (volume.tree "/") (disk.toNamespace.listing [] ways) ∧
      (∀ levels, 40 < levels → disk.Tells (do (← volume.directoryAt "/").treeWithin levels 0)
        (disk.toNamespace.listing [] ways)) ∧
      ∀ way ∈ ways, ∃ action ∈ sample, ∃ text ∈ action.makes?, way <+: Path.target text) ∨
    ((∀ slots, disk.toNamespace [] ≠ some (.directory slots)) ∧
      ∃ cause, disk.Tells (volume.list "/") (.error (.error cause)) ∧
        disk.Tells (volume.tree "/") (.error (.error cause)))) := by
  obtain ⟨volume, disk, run⟩ := exists_run_sample
  have root : Path.components "/" = [] := by simp [Path.components, Path.namesIn, Path.separator]
  have absolute : Path.Absolute "/" := by decide
  have listings := run.listings (by decide) (by decide) absolute
  rw [root] at listings
  exact ⟨volume, disk, run, listings⟩

end SectorFS
