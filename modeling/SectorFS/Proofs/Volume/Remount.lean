import Mathlib.Data.List.Dedup
import SectorFS.Proofs.Volume.Renumber

/-!
# Remounting

All that a volume relies on is on the disk, but for its descriptors. So what `mount` makes of the
disk is the volume that was taken off it, with all descriptors closed and their numbers given out
anew, and nobody who goes on with either of the two can tell them apart but by the numbers
(`Run.remount_transparent`).
-/

namespace SectorFS

/-! ## What is done with a volume -/

namespace Volume

/-- Carries the actions out, one after another. A fault ends it. -/
def events (volume : Volume) (disk : Disk) : List Action → List Event
  | [] => []
  | action :: rest =>
    match volume.act action disk with
    | .ok (answer, volume') disk' => (action, .ok answer) :: volume'.events disk' rest
    | .error (.error cause) disk' => (action, .error (.error cause)) :: volume.events disk' rest
    | .error (.fault fault) _ => [(action, .error (.fault fault))]

variable {volume : Volume} {n : Nat} {disk disk' : Disk} {c : Catalog} {map : FreeMap}
variable {action : Action} {result : Except Failure (Answer × Volume)} {rest : List Action}

theorem events_cons (ends : volume.act action disk = ending result disk')
    (safe : ∀ fault, result ≠ .error (.fault fault)) :
    volume.events disk (action :: rest) =
      (action, result.map Prod.fst) :: (volume.next result).events disk' rest := by
  rw [events, ends]
  match result with
  | .ok (answer, volume') => rfl
  | .error (.error cause) => rfl
  | .error (.fault fault) => exact absurd rfl (safe fault)

theorem events_of_fault {fault : Fault}
    (ends : volume.act action disk = ending (.error (.fault fault)) disk') :
    volume.events disk (action :: rest) = [(action, .error (.fault fault))] := by
  rw [events, ends]
  rfl

/-- What is done with a volume depends on what the disk holds only. -/
theorem Mounted.events_congr {later : List Action} (m : volume.Mounted disk n c map)
    (sound : disk'.Sound n) (same : disk'.store = disk.store) (fits : ∀ a ∈ later, a.Fits) :
    volume.events disk' later = volume.events disk later := by
  induction later generalizing volume disk disk' c map with
  | nil => rfl
  | cons action rest ih =>
    obtain ⟨result, ws, c', map', runs, effect⟩ :=
      Catalog.runs_act m.laidOut m.known (fits action List.mem_cons_self)
    obtain ⟨after, ends, wrote⟩ := runs.ends m.sound
    obtain ⟨after', ends', wrote'⟩ := (same ▸ runs).ends sound
    by_cases fault : ∃ fault, result = .error (.fault fault)
    · obtain ⟨fault, rfl⟩ := fault
      rw [events_of_fault ends, events_of_fault ends']
    · have safe (fault' : Fault) : result ≠ .error (.fault fault') := fun h => fault ⟨fault', h⟩
      have stored := wrote.store_eq m.sound.covers
      have stored' := wrote'.store_eq sound.covers
      rw [events_cons ends safe, events_cons ends' safe]
      congr 1
      apply ih ⟨wrote.sound m.sound, stored ▸ effect.laidOut, effect.known⟩ (wrote'.sound sound)
      · rw [stored, stored', same]
      · exact fun a ha => fits a (List.mem_cons_of_mem _ ha)

/-! ## Closing all descriptors -/

/-- The open numbers. -/
def numbers (volume : Volume) : List Nat := (volume.descriptors.map Prod.fst).dedup

theorem mem_numbers {id : Nat} : id ∈ volume.numbers ↔ ∃ d, volume.under id = some d := by
  rw [numbers, List.mem_dedup, under, ← Option.isSome_iff_exists, List.lookup_isSome_iff]
  constructor
  · intro h
    obtain ⟨pair, hpair, rfl⟩ := List.mem_map.mp h
    exact ⟨pair, hpair, beq_self_eq_true _⟩
  · rintro ⟨pair, hpair, same⟩
    exact List.mem_map.mpr ⟨pair, hpair, (eq_of_beq same).symm⟩

theorem descriptors_eq_nil (none : ∀ id, volume.under id = none) : volume.descriptors = [] := by
  cases h : volume.descriptors with
  | nil => rfl
  | cons pair rest =>
    obtain ⟨id, d⟩ := pair
    have found : volume.under id = some d := by simp [under, h]
    rw [none] at found
    cases found

/-- When the open numbers are closed one after another, nothing is left but the volume. -/
theorem events_close {ids : List Nat} (distinct : ids.Nodup)
    (all : ∀ id, id ∈ ids ↔ ∃ d, volume.under id = some d) (disk : Disk) (rest : List Action) :
    volume.events disk (ids.map (fun id => .request (.close id)) ++ rest) =
      ids.map (fun id => (.request (.close id), .ok .done)) ++
        ({ volume with descriptors := [] } : Volume).events disk rest := by
  induction ids generalizing volume with
  | nil =>
    have none : volume.descriptors = [] := descriptors_eq_nil fun id =>
      Option.eq_none_iff_forall_ne_some.mpr fun d hd => List.not_mem_nil ((all id).mpr ⟨d, hd⟩)
    obtain ⟨count, mapFile, rootFile, descriptors, nextId⟩ := volume
    obtain rfl : descriptors = [] := none
    rfl
  | cons id ids ih =>
    obtain ⟨d, hd⟩ := (all id).mp List.mem_cons_self
    have ends : volume.act (.request (.close id)) disk =
        ending (.ok (.done, volume.closed id)) disk := by
      simp only [act, perform, close, descriptor_eq_ok_iff.mpr hd]
      rfl
    rw [List.map_cons, List.cons_append, events_cons ends (by simp)]
    refine congrArg (List.cons _) (ih (List.nodup_cons.mp distinct).2 fun j => ?_)
    change j ∈ ids ↔ ∃ d, (volume.closed id).under j = some d
    rw [closed, under_close]
    by_cases gone : j = id
    · simp [gone, (List.nodup_cons.mp distinct).1]
    · simp [gone, ← all]

/-! ## Mounting what is there -/

/-- The volume with nothing open and no number given out. -/
def fresh (volume : Volume) : Volume :=
  .ofSystemFiles volume.sectorCount volume.mapFile volume.rootFile

/-- Volumes over the same catalog differ in their descriptors only. -/
theorem Over.eq_fresh {volume' : Volume} (known : volume.Over c n) (known' : volume'.Over c n)
    (none : volume'.descriptors = []) (one : volume'.nextId = 1) : volume' = volume.fresh := by
  obtain ⟨mapExtent, hmap, holds⟩ := known.mapFile
  obtain ⟨mapExtent', hmap', holds'⟩ := known'.mapFile
  obtain ⟨rootExtent, dir, hroot, roots⟩ := known.rootFile
  obtain ⟨rootExtent', dir', hroot', roots'⟩ := known'.rootFile
  rw [hmap] at hmap'
  cases hmap'
  rw [hroot] at hroot'
  cases hroot'
  have count := known'.count.trans known.count.symm
  obtain ⟨count', mapFile, rootFile, descriptors, nextId⟩ := volume'
  exact Volume.mk.injEq .. ▸ ⟨count, holds'.trans holds.symm, roots'.trans roots.symm, none, one⟩

/-- Remounting gives the fresh volume and writes nothing. -/
theorem Mounted.remount (m : volume.Mounted disk n c map) :
    ∃ disk', volume.act .remount disk = ending (.ok (.done, volume.fresh)) disk' ∧
      disk.Wrote n [] disk' ∧ volume.fresh.Mounted disk n c map := by
  obtain ⟨volume', runs, known', none, one⟩ := Catalog.runs_mount m.laidOut
  obtain rfl := m.known.eq_fresh known' none one
  have remount : Runs n disk.store (volume.act .remount) (.ok (.done, volume.fresh)) [] :=
    .andThen .sync (.andThen runs (.done _))
  obtain ⟨disk', ends, wrote⟩ := remount.ends m.sound
  exact ⟨disk', ends, wrote, m.sound, m.laidOut, known'⟩

/-- A volume without descriptors is the fresh one, but for the numbers that it gave out. -/
theorem fresh_raise {k : Nat} (next : volume.nextId = k + 1) :
    volume.fresh.raise k = { volume with descriptors := [] } := by
  obtain ⟨count, mapFile, rootFile, descriptors, nextId⟩ := volume
  obtain rfl : nextId = k + 1 := next
  simp [fresh, ofSystemFiles, raise, Nat.add_comm]

end Volume

/-! ## Two logs -/

/-- The actions with the numbers in them raised, as far as to the next mount. -/
def raiseActions (k : Nat) : List Action → List Action
  | [] => []
  | .request request :: rest => .request (request.raise k) :: raiseActions k rest
  | .remount :: rest => .remount :: rest

/-- The second log is the first with all numbers raised, as far as to the next mount. Its volume,
which would give out the number `next`, may run out of numbers: from there on nothing is said. -/
inductive Renumbered (k : Nat) : (next : Nat) → (log log' : List Event) → Prop where
  | done {next} : Renumbered k next [] []
  | request {next request outcome log log'} :
      Renumbered k (next + if (Event.given? (.request request, outcome)).isSome then 1 else 0)
        log log' →
      Renumbered k next ((.request request, outcome) :: log)
        ((.request (request.raise k), request.raiseOutcome k outcome) :: log')
  | remount {next outcome log} :
      Renumbered k next ((.remount, outcome) :: log) ((.remount, outcome) :: log)
  | exhausted {next path outcome log log'} : Volume.lastId ≤ next →
      Renumbered k next ((.request (.openPath path), outcome) :: log)
        ((.request (.openPath path), .error (.error .noDescriptor)) :: log')

theorem Renumbered.fault {k next : Nat} (request : Request) (fault : Fault) :
    Renumbered k next [(.request request, .error (.fault fault))]
      [(.request (request.raise k), .error (.fault fault))] := by
  have event : Renumbered k next [(.request request, .error (.fault fault))]
    [(.request (request.raise k), .error (request.raiseFailure k (.fault fault)))] :=
    .request .done
  rwa [Request.raiseFailure_fault] at event

namespace Volume

variable {volume : Volume} {n k : Nat} {disk : Disk} {c : Catalog} {map : FreeMap}

theorem exists_events_cons (volume : Volume) (disk : Disk) (action : Action)
    (rest : List Action) :
    ∃ outcome log, volume.events disk (action :: rest) = (action, outcome) :: log := by
  rw [events]
  split <;> exact ⟨_, _, rfl⟩

/-- The next number goes up by the number that was given out. -/
theorem nextId_next {request : Request} {result : Except Failure (Answer × Volume)} {disk' : Disk}
    (ends : volume.perform request disk = ending result disk') :
    (volume.next result).nextId = volume.nextId +
      if (Event.given? (.request request, result.map Prod.fst)).isSome then 1 else 0 := by
  cases result with
  | ok answer => exact (volume.turned (.request request) _ _ _ ends).nextId_eq
  | error e =>
    simp only [Except.map, Event.given?_error]
    rfl

/-- A volume that has given out all its numbers opens nothing more. -/
theorem events_raise_of_exhausted (out : lastId ≤ volume.nextId + k) (disk : Disk) (path : String)
    (rest rest' : List Action) :
    Renumbered k (volume.nextId + k) (volume.events disk (.request (.openPath path) :: rest))
      ((volume.raise k).events disk (.request (.openPath path) :: rest')) := by
  have refused : (volume.raise k).openPath path disk = .error (.error .noDescriptor) disk := by
    unfold openPath
    exact congrFun (if_pos out) disk
  have ends : (volume.raise k).act (.request (.openPath path)) disk =
    ending (.error (.error .noDescriptor)) disk := Does.bind_of_error refused
  obtain ⟨outcome, log, first⟩ := volume.exists_events_cons disk (.request (.openPath path)) rest
  rw [first, events_cons ends (by simp)]
  exact .exhausted out

/-- With all numbers raised, what is done with a volume is done in the same way. -/
theorem Mounted.events_raise {later : List Action} (m : volume.Mounted disk n c map)
    (fits : ∀ a ∈ later, a.Fits) :
    Renumbered k (volume.nextId + k) (volume.events disk later)
      ((volume.raise k).events disk (raiseActions k later)) := by
  induction later generalizing volume disk c map with
  | nil =>
    rw [raiseActions, events, events]
    exact .done
  | cons action rest ih =>
    cases action with
    | remount =>
      obtain ⟨disk', ends, -, -⟩ := m.remount
      rw [raiseActions, events_cons ends (by simp)]
      have ends : (volume.raise k).act .remount disk = _ := ends
      rw [events_cons ends (by simp)]
      exact .remount
    | request request =>
      rw [raiseActions]
      -- the raised volume runs out of numbers first
      by_cases room : (Action.request request).opens = true → volume.nextId + k < lastId
      · obtain ⟨result, disk', ws, c', map', ends, -, -, m'⟩ := m.act (fits _ List.mem_cons_self)
        have ends' : (volume.raise k).act (.request (request.raise k)) disk = _ :=
          m.perform_raise room ends
        by_cases fault : ∃ fault, result = .error (.fault fault)
        · obtain ⟨fault, rfl⟩ := fault
          rw [Request.raiseResult, Request.raiseFailure_fault] at ends'
          rw [events_of_fault ends, events_of_fault ends']
          exact .fault request fault
        · have safe (fault' : Fault) : result ≠ .error (.fault fault') :=
            fun h => fault ⟨fault', h⟩
          have safe' := request.raiseResult_ne_fault safe k
          rw [events_cons ends safe, events_cons ends' safe', Request.map_raiseResult,
            Request.next_raiseResult]
          have next := ih m' fun a ha => fits a (List.mem_cons_of_mem _ ha)
          rw [nextId_next ends, Nat.add_right_comm] at next
          exact .request next
      · obtain ⟨opens, out⟩ := Classical.not_imp.mp room
        cases request with
        | openPath path => exact events_raise_of_exhausted (Nat.not_lt.mp out) disk path rest _
        | _ => cases opens

end Volume

variable {n : Nat} {past : List Action} {volume : Volume} {disk : Disk}

/-- Taking a volume off its disk and mounting what is there succeeds, writes nothing and gives the
fresh volume. Whatever is done with that goes just as it goes on the volume that was never taken
off, once all descriptors of the latter are closed, but for the numbers of descriptors, of which the
latter runs out sooner. -/
theorem Run.remount_transparent (large : 15 ≤ n) (small : n ≤ diskLimit)
    (run : Run n past volume disk) :
    ∃ disk' k, volume.act .remount disk = .ok (.done, volume.fresh) disk' ∧
      disk'.image = disk.image ∧ disk'.writes = disk.writes ∧ volume.nextId = k + 1 ∧
      ∀ later : List Action, (∀ action ∈ later, action.Fits) → ∃ log,
        volume.events disk
            (volume.numbers.map (fun id => .request (.close id)) ++ raiseActions k later) =
          volume.numbers.map (fun id => (.request (.close id), .ok .done)) ++ log ∧
        Renumbered k volume.nextId (volume.fresh.events disk' later) log := by
  obtain ⟨c, map, m, -⟩ := run.mounted large small
  obtain ⟨log, -, logged⟩ := run.exists_log
  have next := (logged.numbered large small).next
  obtain ⟨disk', ends, wrote, fresh⟩ := m.remount
  refine ⟨disk', given log, ends, wrote.image_eq, wrote.writes_eq, next, fun later fits => ?_⟩
  refine ⟨_, Volume.events_close (List.nodup_dedup _) (fun id => volume.mem_numbers) disk _, ?_⟩
  have same : disk'.store = disk.store := wrote.store_eq m.sound.covers
  rw [fresh.events_congr (wrote.sound m.sound) same fits, ← Volume.fresh_raise next, next,
    Nat.add_comm]
  exact fresh.events_raise fits

theorem remount_transparent_sample : ∃ volume disk, Run 40 sample volume disk ∧
    ∃ disk' k, volume.act .remount disk = .ok (.done, volume.fresh) disk' ∧
      disk'.image = disk.image ∧ disk'.writes = disk.writes ∧ volume.nextId = k + 1 ∧
      ∀ later : List Action, (∀ action ∈ later, action.Fits) → ∃ log,
        volume.events disk
            (volume.numbers.map (fun id => .request (.close id)) ++ raiseActions k later) =
          volume.numbers.map (fun id => (.request (.close id), .ok .done)) ++ log ∧
        Renumbered k volume.nextId (volume.fresh.events disk' later) log := by
  obtain ⟨volume, disk, run⟩ := exists_run_sample
  exact ⟨volume, disk, run, run.remount_transparent (by decide) (by decide)⟩

end SectorFS
