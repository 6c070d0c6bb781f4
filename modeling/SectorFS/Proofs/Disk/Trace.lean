import SectorFS.Proofs.Disk.Store

/-!
# Programs that can be cut short

`Does n store program result trace` says what a program does on every disk of `n` sectors that holds
`store`, whatever failures are planned for it. It makes the requests of the trace one after another.
If all of them are let through it ends with `result`; the first one that is refused ends it, and
what was written by then stays written. The rules below take a program apart at its steps.
-/

namespace SectorFS

/-- The end of a run with `result` at `disk`. -/
def ending : Except Failure α → Disk → EStateM.Result Failure Disk α
  | .ok a, disk => .ok a disk
  | .error e, disk => .error e disk

theorem ending_inj {result result' : Except Failure α} {disk disk' : Disk}
    (h : ending result disk = ending result' disk') : result = result' ∧ disk = disk' := by
  cases result <;> cases result' <;> cases h <;> exact ⟨rfl, rfl⟩

/-- A request that is made of a disk. -/
inductive Access where
  | read (sector : Nat)
  | write (sector : Nat) (data : Sector)
  | sync

namespace Access

/-- The request is for one of the `n` sectors. -/
def Within (n : Nat) : Access → Prop
  | read s => s < n
  | write s _ => s < n
  | sync => True

def write? : Access → Option (Nat × Sector)
  | write s data => some (s, data)
  | _ => none

end Access

/-- Requests, first to last. -/
abbrev Trace := List Access

namespace Trace

/-- What the trace writes. -/
def writes (t : Trace) : Writes := t.filterMap Access.write?

@[simp] theorem writes_nil : writes [] = [] := rfl

@[simp] theorem writes_append (t u : Trace) : writes (t ++ u) = t.writes ++ u.writes :=
  List.filterMap_append

@[simp] theorem writes_read (s : Nat) (t : Trace) : writes (.read s :: t) = t.writes := rfl

@[simp] theorem writes_write (s : Nat) (data : Sector) (t : Trace) :
    writes (.write s data :: t) = (s, data) :: t.writes := rfl

@[simp] theorem writes_sync (t : Trace) : writes (.sync :: t) = t.writes := rfl

/-- No other request comes behind the last write. -/
def EndsInWrite (t : Trace) : Prop := ∀ a ∈ t.getLast?, a.write?.isSome

theorem endsInWrite_nil : EndsInWrite [] := by simp [EndsInWrite]

theorem EndsInWrite.append {u : Trace} (s : Nat) (data : Sector) (h : u.EndsInWrite) (t : Trace) :
    EndsInWrite (t ++ .write s data :: u) := by
  intro a last
  cases last' : u.getLast? with
  | none =>
    simp [last', List.getLast?_cons] at last
    simp [← last, Access.write?]
  | some b =>
    simp [last', List.getLast?_cons] at last
    exact h a (by rw [last', last]; rfl)

/-- Wherever such a trace is cut, a write is still to come. -/
theorem EndsInWrite.length_lt {before behind : Trace} {a : Access}
    (h : EndsInWrite (before ++ a :: behind)) :
    before.writes.length < (writes (before ++ a :: behind)).length := by
  have there : (a :: behind).getLast (List.cons_ne_nil a behind) ∈
      (before ++ a :: behind).getLast? := by
    rw [List.getLast?_append, List.getLast?_eq_some_getLast (List.cons_ne_nil a behind)]
    rfl
  obtain ⟨w, hw⟩ := Option.isSome_iff_exists.mp (h _ there)
  have mem : w ∈ writes (a :: behind) := List.mem_filterMap.mpr ⟨_, List.getLast_mem _, hw⟩
  have := List.length_pos_of_mem mem
  rw [writes_append, List.length_append]
  omega

end Trace

namespace Disk

/-- The plan refuses the request. -/
def Refuses (disk : Disk) : Access → Prop
  | .read s => disk.faults.read disk.reads s = true
  | .write s _ => disk.faults.write disk.writes s = true
  | .sync => disk.faults.sync = true

/-- The disk behind a request that is let through. -/
def serve (disk : Disk) : Access → Disk
  | .read s => { disk with reads := s :: disk.reads }
  | .write s data => { disk with image := disk.image.write s data, writes := s :: disk.writes }
  | .sync => disk

/-- The requests are for the `n` sectors, and all of them are let through. -/
inductive Serves (n : Nat) : Disk → Trace → Disk → Prop where
  | done (disk : Disk) : Serves n disk [] disk
  | next {disk a t disk'} : a.Within n → ¬ disk.Refuses a → Serves n (disk.serve a) t disk' →
      Serves n disk (a :: t) disk'

variable {n : Nat} {disk disk' disk'' : Disk} {a : Access} {t u : Trace}

theorem Serves.one (within : a.Within n) (passes : ¬ disk.Refuses a) :
    disk.Serves n [a] (disk.serve a) := .next within passes (.done _)

theorem Serves.trans (h : disk.Serves n t disk') (h' : disk'.Serves n u disk'') :
    disk.Serves n (t ++ u) disk'' := by
  induction h with
  | done => exact h'
  | next within passes _ ih => exact .next within passes (ih h')

theorem wrote_serve (within : a.Within n) : disk.Wrote n (Trace.writes [a]) (disk.serve a) := by
  cases a with
  | read s => exact ⟨by simp, rfl, rfl, rfl, rfl⟩
  | write s data => exact ⟨by simpa [Access.Within] using within, rfl, rfl, rfl, rfl⟩
  | sync => exact .refl n disk

/-- Requests that are let through do no more than to write. -/
theorem Serves.wrote (h : disk.Serves n t disk') : disk.Wrote n t.writes disk' := by
  induction h with
  | done disk => exact .refl n disk
  | @next disk a t disk' within _ _ ih =>
    have first : disk.Wrote n (Trace.writes [a]) (disk.serve a) := wrote_serve within
    have whole := first.trans ih
    rwa [← Trace.writes_append] at whole

/-- A sound disk refuses nothing. -/
theorem Sound.not_refuses (sound : disk.Sound n) (a : Access) : ¬ disk.Refuses a := by
  cases a with
  | read s => simp [Refuses, sound.read_passes]
  | write s data => simp [Refuses, sound.write_passes]
  | sync => simp [Refuses, sound.sync_passes]

/-! ## Requests -/

theorem Covers.check (covers : disk.Covers n) {s : Nat} (hs : s < n) :
    disk.check s sectorSize = .ok () := by
  have addressable : disk.sectorCount * sectorSize ≤ Disk.offsetLimit := by
    rw [covers.sectorCount_eq]
    exact covers.addressable
  have there : ¬ disk.sectorCount ≤ s := by
    rw [covers.sectorCount_eq]
    omega
  rw [Disk.check_eq addressable, if_neg there, if_neg (by simp)]

theorem Covers.read (covers : disk.Covers n) {s : Nat} (hs : s < n)
    (passes : ¬ disk.Refuses (.read s)) :
    Disk.read s disk = .ok (disk.store s) (disk.serve (.read s)) := by
  have passes : disk.faults.read disk.reads s = false := by simpa [Refuses] using passes
  have found := Image.sector?_of_lt (Nat.lt_of_lt_of_le hs covers.covered)
  have check : disk.check s sectorSize = .ok () := covers.check hs
  simp [Disk.read, Disk.readInto, passes, check, found, Disk.store, serve]

theorem Covers.write (covers : disk.Covers n) {s : Nat} (hs : s < n) (data : Sector)
    (passes : ¬ disk.Refuses (.write s data)) :
    Disk.write s data disk = .ok () (disk.serve (.write s data)) := by
  have passes : disk.faults.write disk.writes s = false := by simpa [Refuses] using passes
  have check : disk.check s data.bytes.length = .ok () := by
    rw [data.length_bytes]
    exact covers.check hs
  have whole : Sector.ofBytes data.bytes = data := by
    simp [Sector.ofBytes, data.length_bytes, List.take_of_length_le]
  simp [Disk.write, Disk.writeFrom, passes, check, whole, serve]

end Disk

/-- A request that the device refuses as planned. -/
def Failure.injected : Failure := .error (.io .injected)

/-- On every disk of `n` sectors that holds `store`, the program makes the requests of the trace and
ends with `result`, or ends at the first of them that is refused. -/
def Does (n : Nat) (store : Store) (program : DiskM α) (result : Except Failure α)
    (t : Trace) : Prop :=
  ∀ disk : Disk, disk.Covers n → disk.store = store →
    (∃ disk', program disk = ending result disk' ∧ disk.Serves n t disk') ∨
    ∃ before a behind disk', t = before ++ a :: behind ∧
      program disk = ending (.error .injected) disk' ∧ disk.Serves n before disk' ∧
      disk'.Refuses a

namespace Does

variable {n : Nat} {store : Store} {t u : Trace}

theorem done (a : α) : Does n store (pure a) (.ok a) [] :=
  fun disk _ _ => .inl ⟨disk, rfl, .done disk⟩

theorem refuse (e : Failure) : Does n store (throw e : DiskM α) (.error e) [] :=
  fun disk _ _ => .inl ⟨disk, rfl, .done disk⟩

theorem bind_of_ok {program : DiskM α} {next : α → DiskM β} {disk disk' : Disk} {a : α}
    (h : program disk = .ok a disk') : (program >>= next) disk = next a disk' := by
  change EStateM.bind program next disk = _
  unfold EStateM.bind
  rw [h]

theorem bind_of_error {program : DiskM α} {next : α → DiskM β} {disk disk' : Disk} {e : Failure}
    (h : program disk = .error e disk') : (program >>= next) disk = .error e disk' := by
  change EStateM.bind program next disk = _
  unfold EStateM.bind
  rw [h]

theorem map_of_ok {program : DiskM α} {disk disk' : Disk} {a : α} (f : α → β)
    (h : program disk = .ok a disk') : (f <$> program) disk = .ok (f a) disk' := by
  rw [map_eq_pure_bind]
  exact bind_of_ok h

theorem map_of_error {program : DiskM α} {disk disk' : Disk} {e : Failure} (f : α → β)
    (h : program disk = .error e disk') : (f <$> program) disk = .error e disk' := by
  rw [map_eq_pure_bind]
  exact bind_of_error h

/-- A step that ends well, then the rest on the store it leaves. -/
theorem step {program : DiskM α} {next : α → DiskM β} {a : α} {result : Except Failure β}
    (first : Does n store program (.ok a) t)
    (rest : Does n (store.after t.writes) (next a) result u) :
    Does n store (program >>= next) result (t ++ u) := by
  intro disk covers holds
  rcases first disk covers holds with ⟨disk', ends, serves⟩ |
    ⟨before, b, behind, disk', rfl, ends, serves, refused⟩
  · have wrote := serves.wrote
    have holds' : disk'.store = store.after t.writes := by rw [wrote.store_eq covers, holds]
    rcases rest disk' (wrote.covers covers) holds' with ⟨disk'', ends', serves'⟩ |
      ⟨before, b, behind, disk'', rfl, ends', serves', refused⟩
    · exact .inl ⟨disk'', (bind_of_ok ends).trans ends', serves.trans serves'⟩
    · exact .inr ⟨t ++ before, b, behind, disk'', by simp, (bind_of_ok ends).trans ends',
        serves.trans serves', refused⟩
  · exact .inr ⟨before, b, behind ++ u, disk', by simp, bind_of_error ends, serves, refused⟩

theorem map {program : DiskM α} {a : α} (f : α → β) (h : Does n store program (.ok a) t) :
    Does n store (f <$> program) (.ok (f a)) t := by
  rw [map_eq_pure_bind, ← List.append_nil t]
  exact h.step (.done (f a))

/-- A step that fails ends the program. -/
theorem stop {program : DiskM α} {next : α → DiskM β} {e : Failure}
    (first : Does n store program (.error e) t) :
    Does n store (program >>= next) (.error e) t := by
  intro disk covers holds
  rcases first disk covers holds with ⟨disk', ends, serves⟩ |
    ⟨before, b, behind, disk', rfl, ends, serves, refused⟩
  · exact .inl ⟨disk', bind_of_error ends, serves⟩
  · exact .inr ⟨before, b, behind, disk', rfl, bind_of_error ends, serves, refused⟩

/-- Programs that are the same on every disk of `n` sectors do the same. -/
theorem congr {program program' : DiskM α} {result : Except Failure α}
    (same : ∀ disk : Disk, disk.Covers n → program disk = program' disk)
    (h : Does n store program' result t) : Does n store program result t := by
  intro disk covers holds
  rw [same disk covers]
  exact h disk covers holds

theorem read {s : Nat} (hs : s < n) : Does n store (Disk.read s) (.ok (store s)) [.read s] := by
  rintro disk covers rfl
  by_cases refused : disk.Refuses (.read s)
  · have ends : Disk.read s disk = .error .injected disk := if_pos refused
    exact .inr ⟨[], .read s, [], disk, rfl, ends, .done disk, refused⟩
  · exact .inl ⟨_, covers.read hs refused, .one hs refused⟩

theorem write {s : Nat} (hs : s < n) (data : Sector) :
    Does n store (Disk.write s data) (.ok ()) [.write s data] := by
  rintro disk covers rfl
  by_cases refused : disk.Refuses (.write s data)
  · have ends : Disk.write s data disk = .error .injected disk := if_pos refused
    exact .inr ⟨[], .write s data, [], disk, rfl, ends, .done disk, refused⟩
  · exact .inl ⟨_, covers.write hs data refused, .one hs refused⟩

theorem sync : Does n store Disk.sync (.ok ()) [.sync] := by
  rintro disk covers rfl
  by_cases refused : disk.Refuses .sync
  · have ends : Disk.sync disk = .error .injected disk := if_pos refused
    exact .inr ⟨[], .sync, [], disk, rfl, ends, .done disk, refused⟩
  · exact .inl ⟨disk, if_neg refused, .one trivial refused⟩

theorem count : Does n store Disk.count (.ok n) [] := by
  rintro disk covers rfl
  exact .inl ⟨disk, by rw [← covers.sectorCount_eq]; rfl, .done disk⟩

end Does

end SectorFS
