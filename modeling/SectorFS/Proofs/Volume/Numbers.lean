import SectorFS.Proofs.Disk.Answers
import SectorFS.Proofs.Volume.Observe
import SectorFS.Proofs.Volume.Reachable

/-!
# The numbers of descriptors

What an answered action makes of a volume is one of five things, whatever the disk is like
(`Volume.turned`). From this a log of what was done, and of how it ended, tells which numbers are
open and which one the next opening gives out (`Logged.numbered`). No action makes a descriptor
stale: what is open is `Live` in the log and `Current` on the disk (`Logged.descriptors_live`).
-/

namespace SectorFS

/-! ## One action -/

/-- The number that a request is for. -/
def Request.number? : Request → Option Nat
  | .read id _ => some id
  | .write id _ => some id
  | .seek id _ => some id
  | .length id => some id
  | .close id => some id
  | _ => none

/-- The action gives numbers out or takes them back. -/
def Action.renumbers : Action → Bool
  | .request (.openPath _) => true
  | .request (.close _) => true
  | .request _ => false
  | .remount => true

namespace Volume

/-- The volume without the descriptor under a number. -/
def closed (volume : Volume) (id : Nat) : Volume :=
  { volume with descriptors := volume.descriptors.filter (·.1 != id) }

/-- What can become of a volume by an action that is answered. -/
inductive Turned (volume : Volume) : Action → Answer → Volume → Prop where
  | opened (path : String) (d : Descriptor) :
      Turned volume (.request (.openPath path)) (.descriptor volume.nextId) (volume.opened d)
  | closed (id : Nat) : Turned volume (.request (.close id)) .done (volume.closed id)
  | mounted {volume' : Volume} : volume'.descriptors = [] → volume'.nextId = 1 →
      Turned volume .remount .done volume'
  | moved {request : Request} {answer : Answer} {id : Nat} (file : File) :
      (Action.request request).renumbers = false → request.number? = some id →
      Turned volume (.request request) answer (volume.setFile id file)
  | kept {request : Request} {answer : Answer} : (Action.request request).renumbers = false →
      Turned volume (.request request) answer volume

variable {volume volume' : Volume}

theorem yields_openPath (path : String) : Yields (volume.openPath path) fun opened =>
    opened.1 = volume.nextId ∧ ∃ d, opened.2 = volume.opened d :=
  .guard (.andThen fun d => .done ⟨rfl, d, rfl⟩)

theorem yields_mount :
    Yields mount fun volume => volume.descriptors = [] ∧ volume.nextId = 1 :=
  .andThen fun _ => .guard (.andThen fun _ => .andThen fun _ => .andThen fun _ => .guard
    (.guard (.andThen fun _ => .andThen fun _ => .guard (.done ⟨rfl, rfl⟩))))

theorem yields_read (id count : Nat) :
    Yields (volume.read id count) fun read => ∃ file, read.2 = volume.setFile id file :=
  .andThen fun _ => .andThen fun (_, file) => .done ⟨file, rfl⟩

theorem yields_write (id : Nat) (data : List UInt8) :
    Yields (volume.write id data) fun wrote => ∃ file, wrote.2 = volume.setFile id file :=
  .andThen fun _ => .guard (.andThen fun (_, file) => .done ⟨file, rfl⟩)

theorem exists_file_of_seek {id position : Nat} (h : volume.seek id position = .ok volume') :
    ∃ file, volume' = volume.setFile id file := by
  unfold seek at h
  cases found : volume.descriptor id with
  | ok d =>
    rw [found] at h
    exact ⟨_, (Except.ok.inj h).symm⟩
  | error e =>
    rw [found] at h
    cases h

theorem eq_closed_of_close {id : Nat} (h : volume.close id = .ok volume') :
    volume' = volume.closed id := by
  unfold close at h
  cases found : volume.descriptor id with
  | ok d =>
    rw [found] at h
    exact (Except.ok.inj h).symm
  | error e =>
    rw [found] at h
    cases h

/-- An answered action turns the volume in one of five ways. -/
theorem turned (volume : Volume) (action : Action) :
    Yields (volume.act action) fun answer => volume.Turned action answer.1 answer.2 := by
  cases action with
  | remount =>
    refine .andThen fun _ => .step yields_mount fun _ ⟨empty, one⟩ => .done ?_
    exact .mounted empty one
  | request request =>
    cases request with
    | openPath path =>
      refine .step (yields_openPath path) fun (id, volume') ⟨number, d, opened⟩ => .done ?_
      obtain rfl : id = volume.nextId := number
      obtain rfl : volume' = volume.opened d := opened
      exact .opened path d
    | read id count =>
      refine .step (yields_read id count) fun (_, volume') ⟨file, moved⟩ => .done ?_
      obtain rfl : volume' = volume.setFile id file := moved
      exact .moved file rfl rfl
    | write id data =>
      refine .step (yields_write id data) fun (_, volume') ⟨file, moved⟩ => .done ?_
      obtain rfl : volume' = volume.setFile id file := moved
      exact .moved file rfl rfl
    | seek id position =>
      refine .step (.liftError fun _ => exists_file_of_seek) fun volume' ⟨file, moved⟩ => .done ?_
      rw [moved]
      exact .moved file rfl rfl
    | close id =>
      refine .step (.liftError fun _ => eq_closed_of_close) fun volume' closed => .done ?_
      rw [closed]
      exact .closed id
    | create | makeDirectory | length | remove | list | tree | freeCount | dump =>
      exact .andThen fun _ => .done (.kept rfl)

/-- A request for a number that is not open is refused, and the disk stays as it is. -/
theorem act_of_closed {request : Request} {id : Nat} (takes : request.number? = some id)
    (closed : volume.under id = none) (disk : Disk) :
    volume.act (.request request) disk = .error (.error (.badDescriptor id)) disk := by
  have bad := descriptor_of_none closed
  cases request <;> cases takes <;>
    simp only [act, perform, read, write, seek, length, close, bad] <;> rfl

/-- A request leaves every descriptor alone that it is not for. -/
theorem Turned.under_eq {request : Request} {answer : Answer} {j : Nat} {d : Descriptor}
    (turned : volume.Turned (.request request) answer volume') (hj : volume.under j = some d)
    (fresh : volume.under volume.nextId = none) (other : request.number? ≠ some j) :
    volume'.under j = some d := by
  cases turned with
  | opened path new =>
    rw [under_opened, if_neg, hj]
    rintro rfl
    rw [hj] at fresh
    cases fresh
  | closed id =>
    have away : j ≠ id := fun same => other (congrArg some same.symm)
    exact (under_close volume id j).trans ((if_neg away).trans hj)
  | moved file _ takes =>
    have away : j ≠ _ := fun same => other (takes.trans (congrArg some same.symm))
    rw [under_setFile, if_neg away, hj]
  | kept => exact hj

end Volume

/-! ## The log -/

/-- An action, and how it ended. -/
abbrev Event := Action × Except Failure Answer

namespace Event

/-- The number that was given out. -/
def given? : Event → Option Nat
  | (.request (.openPath _), .ok (.descriptor id)) => some id
  | _ => none

/-- A volume was mounted. -/
def mounts : Event → Bool
  | (.remount, .ok _) => true
  | _ => false

/-- The number was taken back: its descriptor was closed, or all were dropped. -/
def drops (id : Nat) : Event → Bool
  | (.request (.close j), .ok _) => j == id
  | (.remount, .ok _) => true
  | _ => false

theorem given?_of_kept {request : Request} (h : (Action.request request).renumbers = false)
    (outcome : Except Failure Answer) : given? (.request request, outcome) = none := by
  cases request with
  | openPath path => cases h
  | _ => rfl

theorem drops_of_kept {request : Request} (h : (Action.request request).renumbers = false)
    (outcome : Except Failure Answer) (id : Nat) :
    drops id (.request request, outcome) = false := by
  cases request with
  | close id => cases h
  | _ => rfl

theorem given?_error (action : Action) (e : Failure) : given? (action, .error e) = none := by
  cases action with
  | remount => rfl
  | request request => cases request <;> rfl

theorem drops_error (action : Action) (e : Failure) (id : Nat) :
    drops id (action, .error e) = false := by
  cases action with
  | remount => rfl
  | request request => cases request <;> rfl

end Event

/-- How many numbers were given out since the last mount. -/
def given (log : List Event) : Nat :=
  (log.reverse.takeWhile (!·.mounts)).countP (·.given?.isSome)

/-- The number was given out, and was not taken back since. -/
def Live (log : List Event) (id : Nat) : Prop :=
  ∃ before e after, log = before ++ e :: after ∧ e.given? = some id ∧
    ∀ f ∈ after, f.drops id = false

theorem given_append_of_mounts {log : List Event} {e : Event} (h : e.mounts = true) :
    given (log ++ [e]) = 0 := by
  simp [given, h]

theorem given_append {log : List Event} {e : Event} (h : e.mounts = false) :
    given (log ++ [e]) = given log + if e.given?.isSome then 1 else 0 := by
  simp [given, h, List.countP_cons]

theorem live_append_iff {log : List Event} {e : Event} {id : Nat} :
    Live (log ++ [e]) id ↔ e.given? = some id ∨ Live log id ∧ e.drops id = false := by
  constructor
  · rintro ⟨before, f, after, split, gives, kept⟩
    -- the number was given out last, or before the last event
    rcases after.eq_nil_or_concat' with rfl | ⟨after, g, rfl⟩
    · obtain ⟨-, same⟩ := List.append_inj' split rfl
      exact .inl (List.singleton_inj.mp same ▸ gives)
    · rw [← List.cons_append, ← List.append_assoc] at split
      obtain ⟨rfl, same⟩ := List.append_inj' split rfl
      obtain rfl := List.singleton_inj.mp same
      exact .inr ⟨⟨before, f, after, rfl, gives, fun g hg => kept g (List.mem_append_left _ hg)⟩,
        kept e (by simp)⟩
  · rintro (gives | ⟨⟨before, f, after, rfl, gives, kept⟩, stays⟩)
    · exact ⟨log, e, [], rfl, gives, nofun⟩
    · refine ⟨before, f, after ++ [e], by simp, gives, fun g hg => ?_⟩
      rcases List.mem_append.mp hg with hg | hg
      · exact kept g hg
      · rw [List.mem_singleton.mp hg]
        exact stays

namespace Volume

/-- The log tells the open numbers and the next one. -/
structure Numbered (volume : Volume) (log : List Event) : Prop where
  next : volume.nextId = given log + 1
  open_iff : ∀ id, (∃ d, volume.under id = some d) ↔ Live log id

variable {volume volume' : Volume} {log : List Event}

theorem Numbered.of_empty (none : volume.descriptors = []) (one : volume.nextId = 1) :
    volume.Numbered [] where
  next := one
  open_iff id := by
    simp [under, none, Live]

/-- Opening uses the next number up, and no other request does. -/
theorem Turned.nextId_eq {request : Request} {answer : Answer}
    (turned : volume.Turned (.request request) answer volume') :
    volume'.nextId = volume.nextId +
      if (Event.given? (.request request, .ok answer)).isSome then 1 else 0 := by
  cases turned with
  | opened path d => rfl
  | closed id => rfl
  | moved file plain takes =>
    rw [Event.given?_of_kept plain]
    rfl
  | kept plain =>
    rw [Event.given?_of_kept plain]
    rfl

theorem Turned.open_iff {action : Action} {answer : Answer} {id : Nat}
    (turned : volume.Turned action answer volume') :
    (∃ d, volume'.under id = some d) ↔ Event.given? (action, .ok answer) = some id ∨
      (∃ d, volume.under id = some d) ∧ Event.drops id (action, .ok answer) = false := by
  cases turned with
  | opened path d =>
    by_cases new : id = volume.nextId
    · simp [under_opened, new, Event.given?]
    · simp [under_opened, new, Ne.symm new, Event.given?, Event.drops]
  | closed j =>
    rw [Volume.closed, under_close]
    by_cases same : id = j
    · simp [same, Event.given?, Event.drops]
    · simp [same, Ne.symm same, Event.given?, Event.drops]
  | mounted none one => simp [under, none, Event.given?, Event.drops]
  | moved file plain takes =>
    rw [Event.given?_of_kept plain, Event.drops_of_kept plain, under_setFile]
    split <;> simp_all
  | kept plain => simp [Event.given?_of_kept plain, Event.drops_of_kept plain]

theorem Numbered.answer {action : Action} {answer : Answer} (h : volume.Numbered log)
    (turned : volume.Turned action answer volume') :
    volume'.Numbered (log ++ [(action, .ok answer)]) where
  next := by
    cases action with
    | remount =>
      rw [given_append_of_mounts rfl]
      cases turned with
      | mounted _ one => exact one
    | request request =>
      rw [given_append rfl, turned.nextId_eq, h.next]
      exact Nat.add_right_comm _ _ _
  open_iff id := by
    rw [live_append_iff, ← h.open_iff]
    exact turned.open_iff

theorem Numbered.error {action : Action} {e : Failure} (h : volume.Numbered log) :
    volume.Numbered (log ++ [(action, .error e)]) where
  next := by
    have unmounted : Event.mounts (action, .error e) = false := by cases action <;> rfl
    rw [given_append unmounted, Event.given?_error]
    exact h.next
  open_iff id := by
    simp [live_append_iff, Event.given?_error, Event.drops_error, h.open_iff]

end Volume

/-- The volume and the disk after a format and what the log tells. -/
inductive Logged (n : Nat) : (log : List Event) → Volume → Disk → Prop where
  | format {disk volume disk'} : disk.Sound n → Volume.format disk = .ok volume disk' →
      Logged n [] volume disk'
  | answer {log volume disk action answer volume' disk'} : Logged n log volume disk →
      action.Fits → volume.act action disk = .ok (answer, volume') disk' →
      Logged n (log ++ [(action, .ok answer)]) volume' disk'
  | refusal {log volume disk action cause disk'} : Logged n log volume disk → action.Fits →
      volume.act action disk = .error (.error cause) disk' →
      Logged n (log ++ [(action, .error (.error cause))]) volume disk'

/-- What a descriptor is for is in the tree, is what the descriptor takes it for, and has the header
that the descriptor has. -/
def Descriptor.Current (d : Descriptor) (disk : Disk) : Prop :=
  ∃ path e, disk.find? path = some e ∧ e.sector = d.file.sector ∧ e.isDirectory = d.isDirectory ∧
    disk.header? d.file.sector = some d.file.header

variable {n : Nat} {past : List Action} {log : List Event} {volume : Volume} {disk : Disk}

/-- What was done is a run. -/
theorem Logged.run (logged : Logged n log volume disk) :
    Run n (log.map Prod.fst) volume disk := by
  induction logged with
  | format sound ends => exact .format sound ends
  | answer _ fits ends ih =>
    rw [List.map_append]
    exact .answer ih fits ends
  | refusal _ fits ends ih =>
    rw [List.map_append]
    exact .refusal ih fits ends

/-- Every run can be logged. -/
theorem Run.exists_log (run : Run n past volume disk) :
    ∃ log, log.map Prod.fst = past ∧ Logged n log volume disk := by
  induction run with
  | format sound ends => exact ⟨[], rfl, .format sound ends⟩
  | answer _ fits ends ih =>
    obtain ⟨log, rfl, logged⟩ := ih
    exact ⟨_, by simp, .answer logged fits ends⟩
  | refusal _ fits ends ih =>
    obtain ⟨log, rfl, logged⟩ := ih
    exact ⟨_, by simp, .refusal logged fits ends⟩

/-- The log of a run tells the open numbers and the next one. -/
theorem Logged.numbered (large : 15 ≤ n) (small : n ≤ diskLimit)
    (logged : Logged n log volume disk) : volume.Numbered log := by
  induction logged with
  | format sound ends =>
    obtain ⟨c, map, volume', disk'', ends', -, -, none, one⟩ :=
      Volume.exists_format large small sound
    rw [ends] at ends'
    cases ends'
    exact .of_empty none one
  | answer _ _ ends ih => exact ih.answer (Volume.turned _ _ _ _ _ ends)
  | refusal _ _ _ ih => exact ih.error

/-- What a descriptor of a mounted volume is for is where the catalog has it. -/
theorem Volume.Mounted.current {c : Catalog} {map : FreeMap} (m : volume.Mounted disk n c map)
    {id : Nat} {d : Descriptor} (hd : volume.under id = some d) : d.Current disk := by
  obtain ⟨ne, -, node, hnode, header, kind⟩ := m.known.descriptors id d hd
  obtain ⟨path, way⟩ := (m.laidOut.valid.reached _ _ hnode).resolve_left ne
  obtain ⟨e, found, sector, directory, same⟩ := m.laidOut.exists_entry m.sound way hnode
  exact ⟨path, e, found, sector, directory.symm.trans kind, same.trans (congrArg some header.symm)⟩

/-- The volume and the disk are as the log has it: no descriptor has gone stale, and no request
will make one so. -/
structure Volume.Follows (volume : Volume) (log : List Event) (disk : Disk) : Prop where
  current : ∀ id d, volume.under id = some d → d.Current disk
  open_iff : ∀ id, (∃ d, volume.under id = some d) ↔ Live log id
  /-- The k-th opening since the last mount gets the number k. -/
  opens : ∀ path answer volume' disk',
    volume.act (.request (.openPath path)) disk = .ok (answer, volume') disk' →
    answer = .descriptor (given log + 1) ∧ ∃ d, volume'.under (given log + 1) = some d
  refuses : ∀ request id, request.number? = some id → ¬ Live log id →
    volume.act (.request request) disk = .error (.error (.badDescriptor id)) disk
  /-- A request changes no descriptor but the one that it is for. -/
  spares : ∀ request result disk', volume.act (.request request) disk = ending result disk' →
    ∀ id d, volume.under id = some d → request.number? ≠ some id →
      (volume.next result).under id = some d

/-- Descriptors never go stale. -/
theorem Logged.descriptors_live (large : 15 ≤ n) (small : n ≤ diskLimit)
    (logged : Logged n log volume disk) : volume.Follows log disk := by
  obtain ⟨c, map, m, -⟩ := logged.run.mounted large small
  have numbered := logged.numbered large small
  refine ⟨fun id d hd => m.current hd, numbered.open_iff, ?_, ?_, ?_⟩
  · intro path answer volume' disk' ends
    rw [← numbered.next]
    cases volume.turned _ _ _ _ ends with
    | opened path d => exact ⟨rfl, d, (volume.under_opened d _).trans (if_pos rfl)⟩
    | moved _ plain => cases plain
    | kept plain => cases plain
  · intro request id takes closed
    refine Volume.act_of_closed takes ?_ disk
    rw [← numbered.open_iff] at closed
    exact Option.eq_none_iff_forall_ne_some.mpr fun d hd => closed ⟨d, hd⟩
  · intro request result disk' ends id d hd other
    cases result with
    | error e => exact hd
    | ok answered =>
      have turned := volume.turned _ _ _ _ ends
      exact turned.under_eq hd m.known.under_nextId other

theorem descriptors_live_sample : ∃ log volume disk, log.map Prod.fst = sample ∧
    Logged 40 log volume disk ∧ volume.Follows log disk := by
  obtain ⟨volume, disk, run⟩ := exists_run_sample
  obtain ⟨log, actions, logged⟩ := run.exists_log
  exact ⟨log, volume, disk, actions, logged, logged.descriptors_live (by decide) (by decide)⟩

end SectorFS
