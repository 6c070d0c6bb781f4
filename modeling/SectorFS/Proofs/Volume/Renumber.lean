import SectorFS.Proofs.Volume.Numbers

/-!
# Descriptors under other numbers

A volume uses the number of a descriptor to find the descriptor, and for nothing else. So when all
numbers are raised alike, those of its descriptors and those in the requests, it does the same as
before and answers with raised numbers (`Mounted.perform_raise`), until it runs out of them.
-/

namespace SectorFS

/-! ## Raised numbers -/

def Request.raise (k : Nat) : Request → Request
  | .read id count => .read (id + k) count
  | .write id data => .write (id + k) data
  | .seek id position => .seek (id + k) position
  | .length id => .length (id + k)
  | .close id => .close (id + k)
  | request => request

def Answer.raise (k : Nat) : Answer → Answer
  | .descriptor id => .descriptor (id + k)
  | answer => answer

def Failure.raise (k : Nat) : Failure → Failure
  | .error (.badDescriptor id) => .error (.badDescriptor (id + k))
  | e => e

/-- The failure with its number raised, if the request is one for a number. -/
def Request.raiseFailure (request : Request) (k : Nat) (e : Failure) : Failure :=
  if request.number?.isSome then e.raise k else e

namespace Volume

/-- The volume with its descriptors, and those that it will open, under other numbers. -/
def raise (volume : Volume) (k : Nat) : Volume :=
  { volume with
    descriptors := volume.descriptors.map fun (id, d) => (id + k, d)
    nextId := volume.nextId + k }

variable {volume : Volume} {k id : Nat} {d : Descriptor}

theorem under_raise (volume : Volume) (k id : Nat) :
    (volume.raise k).under (id + k) = volume.under id := by
  obtain ⟨count, mapFile, rootFile, descriptors, nextId⟩ := volume
  simp only [raise, under]
  induction descriptors with
  | nil => rfl
  | cons pair rest ih =>
    obtain ⟨key, d⟩ := pair
    rw [List.map_cons, List.lookup_cons, List.lookup_cons, ih]
    by_cases same : id = key
    · simp [same]
    · have other : ¬ id + k = key + k := by omega
      simp [beq_eq_false_iff_ne.mpr same, beq_eq_false_iff_ne.mpr other]

theorem opened_raise (volume : Volume) (k : Nat) (d : Descriptor) :
    (volume.raise k).opened d = (volume.opened d).raise k := by
  simp [opened, raise, Nat.add_right_comm]

theorem setFile_raise (volume : Volume) (k id : Nat) (file : File) :
    (volume.raise k).setFile (id + k) file = (volume.setFile id file).raise k := by
  simp [setFile, raise]

theorem closed_raise (volume : Volume) (k id : Nat) :
    (volume.raise k).closed (id + k) = (volume.closed id).raise k := by
  simp only [closed, raise, List.filter_map]
  congr 2
  apply List.filter_congr
  intro pair _
  simp [bne, Nat.add_right_cancel_iff]

/-! ## Programs that use no numbers -/

theorem enterAlong_raise (volume : Volume) (k sector : Nat) (names : List String) :
    (volume.raise k).enterAlong sector names = volume.enterAlong sector names := by
  induction names generalizing sector with
  | nil => rfl
  | cons name rest ih =>
    simp only [enterAlong, ih]
    rfl

theorem findAlong_raise (volume : Volume) (k sector : Nat) (names : List String) :
    (volume.raise k).findAlong sector names = volume.findAlong sector names := by
  induction names generalizing sector with
  | nil => rfl
  | cons name rest ih =>
    simp only [findAlong, ih]
    rfl

theorem placeFor_raise (volume : Volume) (k : Nat) (path : String) :
    (volume.raise k).placeFor path = volume.placeFor path := by
  unfold placeFor enter
  simp only [enterAlong_raise]
  rfl

theorem create_raise (volume : Volume) (k : Nat) (path : String) (size : Nat) :
    (volume.raise k).create path size = volume.create path size := by
  unfold create
  rw [placeFor_raise]
  rfl

theorem makeDirectory_raise (volume : Volume) (k : Nat) (path : String) :
    (volume.raise k).makeDirectory path = volume.makeDirectory path := by
  unfold makeDirectory
  rw [placeFor_raise]
  rfl

theorem resolve_raise (volume : Volume) (k : Nat) (path : String) :
    (volume.raise k).resolve path = volume.resolve path := by
  unfold resolve enter
  simp only [enterAlong_raise]
  rfl

theorem directoryAt_raise (volume : Volume) (k : Nat) (path : String) :
    (volume.raise k).directoryAt path = volume.directoryAt path := by
  unfold directoryAt find
  simp only [findAlong_raise]
  rfl

theorem isOpen_raise (volume : Volume) (k sector : Nat) :
    (volume.raise k).isOpen sector = volume.isOpen sector := by
  simp [isOpen, raise, List.any_map, Function.comp_def]

theorem remove_raise (volume : Volume) (k : Nat) (path : String) :
    (volume.raise k).remove path = volume.remove path := by
  unfold remove find
  simp only [findAlong_raise, isOpen_raise]
  rfl

/-! ## Requests -/

/-- The second answer is the first with all numbers raised. -/
def Raises (k : Nat) (answer answer' : Answer × Volume) : Prop :=
  answer' = (answer.1.raise k, answer.2.raise k)

/-- The answers are the same, and of the volumes one has its numbers raised. -/
def Follow (k : Nat) (answer answer' : α × Volume) : Prop :=
  answer' = (answer.1, answer.2.raise k)

theorem echoes_openPath (room : volume.nextId + k < lastId) (path : String) :
    Echoes (fun opened opened' => opened' = (opened.1 + k, opened.2.raise k))
      (volume.openPath path) ((volume.raise k).openPath path) := by
  have low : ¬ lastId ≤ volume.nextId := by omega
  have low' : ¬ lastId ≤ (volume.raise k).nextId := Nat.not_le.mpr room
  simp only [openPath, low, low', if_false, resolve_raise]
  exact .andThen fun d => .done (congrArg (Prod.mk _) (volume.opened_raise k d))

theorem echoes_read (hd : volume.under id = some d) (count : Nat) :
    Echoes (Follow k) (volume.read id count) ((volume.raise k).read (id + k) count) := by
  have hd' := (volume.under_raise k id).trans hd
  simp only [read, descriptor_eq_ok_iff.mpr hd, descriptor_eq_ok_iff.mpr hd']
  refine .andThen fun _ => .andThen ?_
  rintro ⟨bytes, file⟩
  exact .done (congrArg (Prod.mk bytes) (volume.setFile_raise k id file))

theorem echoes_write (hd : volume.under id = some d) (data : List UInt8) :
    Echoes (Follow k) (volume.write id data) ((volume.raise k).write (id + k) data) := by
  have hd' := (volume.under_raise k id).trans hd
  simp only [write, descriptor_eq_ok_iff.mpr hd, descriptor_eq_ok_iff.mpr hd']
  refine .andThen fun e => ?_
  split
  · refine .andThen fun _ => .andThen ?_
    rintro ⟨count, file⟩
    exact .done (congrArg (Prod.mk count) (volume.setFile_raise k id file))
  · refine .andThen ?_
    rintro ⟨count, file⟩
    exact .done (congrArg (Prod.mk count) (volume.setFile_raise k id file))

/-- A request for an open number. -/
theorem echoes_of_open {request : Request} (takes : request.number? = some id)
    (hd : volume.under id = some d) :
    Echoes (Raises k) (volume.perform request) ((volume.raise k).perform (request.raise k)) := by
  have found := descriptor_eq_ok_iff.mpr hd
  have found' := descriptor_eq_ok_iff.mpr ((volume.under_raise k id).trans hd)
  cases request <;> cases takes
  case read count =>
    refine .step (echoes_read hd count) fun a _ h => .done ?_
    rw [h]
    rfl
  case write data =>
    refine .step (echoes_write hd data) fun a _ h => .done ?_
    rw [h]
    rfl
  case seek position =>
    simp only [perform, Request.raise, seek, found, found']
    exact .done (congrArg (Prod.mk _) (volume.setFile_raise k id _))
  case length =>
    simp only [perform, Request.raise, length, found, found']
    exact .done rfl
  case close =>
    simp only [perform, Request.raise, close, found, found']
    exact .done (congrArg (Prod.mk _) (volume.closed_raise k id))

theorem echoes_perform {request : Request}
    (room : (Action.request request).opens = true → volume.nextId + k < lastId)
    (there : ∀ id, request.number? = some id → ∃ d, volume.under id = some d) :
    Echoes (Raises k) (volume.perform request) ((volume.raise k).perform (request.raise k)) := by
  cases request with
  | openPath path =>
    refine .step (echoes_openPath (room rfl) path) fun opened _ h => .done ?_
    rw [h]
    rfl
  | create path size =>
    simp only [perform, Request.raise, create_raise]
    exact .andThen fun _ => .done rfl
  | makeDirectory path =>
    simp only [perform, Request.raise, makeDirectory_raise]
    exact .andThen fun _ => .done rfl
  | remove path =>
    simp only [perform, Request.raise, remove_raise]
    exact .andThen fun _ => .done rfl
  | list path =>
    simp only [perform, Request.raise, list, directoryAt_raise]
    exact .andThen fun _ => .done rfl
  | tree path =>
    simp only [perform, Request.raise, tree, directoryAt_raise]
    exact .andThen fun _ => .done rfl
  | freeCount => exact .andThen fun _ => .done rfl
  | dump => exact .andThen fun _ => .done rfl
  | read | write | seek | length | close =>
    obtain ⟨d, hd⟩ := there _ rfl
    exact echoes_of_open rfl hd

variable {n : Nat} {disk disk' : Disk} {c : Catalog} {map : FreeMap} {request : Request}

/-- A request for an open number fails only where it would write to a directory. -/
theorem Mounted.error_of_open {e : Failure} (m : volume.Mounted disk n c map)
    (takes : request.number? = some id) (hd : volume.under id = some d)
    (ends : volume.perform request disk = .error e disk') : e = .error .isADirectory := by
  have found := descriptor_eq_ok_iff.mpr hd
  cases request <;> cases takes
  case read count =>
    obtain ⟨node, -, reads⟩ := Catalog.runs_read m.laidOut m.known hd count
    obtain ⟨disk'', ok, -⟩ := (reads _ rfl).1.ends m.sound
    rw [perform, Does.bind_of_ok ok] at ends
    cases ends
  case write data =>
    cases kind : d.isDirectory with
    | true =>
      have runs : Runs n disk.store (volume.write id data) (.error (.error .isADirectory)) [] := by
        rw [write, found]
        exact .andThen (.liftError _) (.guardFails kind)
      obtain ⟨disk'', failed, -⟩ := runs.ends m.sound
      rw [perform, Does.bind_of_error failed] at ends
      cases ends
      rfl
    | false =>
      obtain ⟨extent, count, ws, -, -, runs, -⟩ :=
        Catalog.runs_write m.laidOut m.known hd kind data
      obtain ⟨disk'', ok, -⟩ := runs.ends m.sound
      rw [perform, Does.bind_of_ok ok] at ends
      cases ends
  all_goals
    simp only [perform, seek, length, close, found] at ends
    cases ends

end Volume

namespace Request

/-- The outcome with all numbers raised. -/
def raiseOutcome (request : Request) (k : Nat) : Except Failure Answer → Except Failure Answer
  | .ok answer => .ok (answer.raise k)
  | .error e => .error (request.raiseFailure k e)

/-- The result with all numbers raised. -/
def raiseResult (request : Request) (k : Nat) :
    Except Failure (Answer × Volume) → Except Failure (Answer × Volume)
  | .ok (answer, volume) => .ok (answer.raise k, volume.raise k)
  | .error e => .error (request.raiseFailure k e)

theorem map_raiseResult (request : Request) (k : Nat)
    (result : Except Failure (Answer × Volume)) :
    (request.raiseResult k result).map Prod.fst = request.raiseOutcome k (result.map Prod.fst) := by
  cases result <;> rfl

theorem next_raiseResult (request : Request) (k : Nat) (volume : Volume)
    (result : Except Failure (Answer × Volume)) :
    (volume.raise k).next (request.raiseResult k result) = (volume.next result).raise k := by
  cases result <;> rfl

/-- There is no number in a fault. -/
theorem raiseFailure_fault (request : Request) (k : Nat) (fault : Fault) :
    request.raiseFailure k (.fault fault) = .fault fault := by
  unfold raiseFailure
  split <;> rfl

theorem exists_raiseFailure_eq (request : Request) (k : Nat) (cause : Error) :
    ∃ cause', request.raiseFailure k (.error cause) = .error cause' := by
  unfold raiseFailure
  split
  · cases cause <;> exact ⟨_, rfl⟩
  · exact ⟨cause, rfl⟩

theorem raiseResult_ne_fault (request : Request) {result : Except Failure (Answer × Volume)}
    (safe : ∀ fault, result ≠ .error (.fault fault)) (k : Nat) (fault : Fault) :
    request.raiseResult k result ≠ .error (.fault fault) := by
  match result with
  | .ok answer => nofun
  | .error (.fault fault') => exact absurd rfl (safe fault')
  | .error (.error cause) =>
    obtain ⟨cause', same⟩ := request.exists_raiseFailure_eq k cause
    rw [raiseResult, same]
    nofun

theorem number?_raise {request : Request} {id : Nat} (h : request.number? = some id)
    (k : Nat) : (request.raise k).number? = some (id + k) := by
  cases request <;> cases h <;> rfl

end Request

/-- With all numbers raised, a request ends as it did, with its numbers raised. -/
theorem Volume.Mounted.perform_raise {volume : Volume} {n k : Nat} {disk disk' : Disk}
    {c : Catalog} {map : FreeMap} {request : Request} {result : Except Failure (Answer × Volume)}
    (m : volume.Mounted disk n c map)
    (room : (Action.request request).opens = true → volume.nextId + k < lastId)
    (ends : volume.perform request disk = ending result disk') :
    (volume.raise k).perform (request.raise k) disk =
      ending (request.raiseResult k result) disk' := by
  -- a refusal has a number in it only where the number is not open
  by_cases closed : ∃ id, request.number? = some id ∧ volume.under id = none
  · obtain ⟨id, takes, none⟩ := closed
    have bad : ending result disk' = .error (.error (.badDescriptor id)) disk :=
      ends.symm.trans (act_of_closed takes none disk)
    obtain ⟨rfl, same⟩ : result = .error (.error (.badDescriptor id)) ∧ disk' = disk :=
      ending_inj bad
    have raised := act_of_closed (Request.number?_raise takes k)
      ((volume.under_raise k id).trans none) disk
    simp only [Request.raiseResult, Request.raiseFailure, takes, same]
    exact raised
  · have there (id : Nat) (takes : request.number? = some id) : ∃ d, volume.under id = some d :=
      Option.ne_none_iff_exists'.mp fun none => closed ⟨id, takes, none⟩
    rcases echoes_perform room there disk with ⟨answer, _, middle, ok, ok', rfl⟩ |
      ⟨e, middle, failed, failed'⟩
    · rw [ok] at ends
      obtain ⟨rfl, rfl⟩ : .ok answer = result ∧ middle = disk' := ending_inj ends
      exact ok'
    · rw [failed] at ends
      obtain ⟨rfl, rfl⟩ : .error e = result ∧ middle = disk' := ending_inj ends
      rw [failed']
      have same : request.raiseFailure k e = e := by
        unfold Request.raiseFailure
        cases takes : request.number? with
        | none => rfl
        | some id =>
          obtain ⟨d, hd⟩ := there id takes
          rw [m.error_of_open takes hd failed]
          rfl
      simp only [Request.raiseResult, same]
      rfl

end SectorFS
