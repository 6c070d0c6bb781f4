import SectorFS.Proofs.Disk.Runs

/-!
# Programs on a disk with unreadable sectors

A sector either can be read, every time, or it cannot. So a program can fail only at a *new* read,
of a sector that it did not read before. `Tries n store known program result writes Q` says that at
every new read of a sector that is not `known` already, `Q` holds of what the program has written by
then. Whichever sectors cannot be read, it then comes to its end or stops at a point where `Q` holds
(`Tries.ends`). The rules below take a program apart at its steps. Once a program has scanned some
sectors (`Scans`), these are known to what follows (`Tries.scan`).
-/

namespace SectorFS

/-- Refuses every read of a sector in `bad`, and nothing else. -/
def FaultPlan.reads (bad : Nat → Bool) : FaultPlan := ⟨fun _ s => bad s, fun _ _ => false, false⟩

/-- The program writes nothing, and has read all sectors in `F` when it ends with `result`. -/
def Scans (n : Nat) (store : Store) (F : Nat → Prop) (program : DiskM α)
    (result : Except Failure α) : Prop :=
  ∃ t : Trace, t.writes = [] ∧ Does n store program result t ∧ ∀ s, F s → Access.read s ∈ t

namespace Scans

variable {n : Nat} {store : Store} {F G : Nat → Prop}

theorem runs {program : DiskM α} {result : Except Failure α} (h : Scans n store F program result) :
    Runs n store program result [] := by
  obtain ⟨t, writes, does, -⟩ := h
  exact ⟨t, writes, does⟩

theorem mono {program : DiskM α} {result : Except Failure α} (h : Scans n store F program result)
    (less : ∀ s, G s → F s) : Scans n store G program result := by
  obtain ⟨t, writes, does, reads⟩ := h
  exact ⟨t, writes, does, fun s hs => reads s (less s hs)⟩

theorem done (a : α) : Scans n store (fun _ => False) (pure a) (.ok a) :=
  ⟨[], rfl, .done a, nofun⟩

theorem read {s : Nat} (hs : s < n) :
    Scans n store (· = s) (Disk.read s) (.ok (store s)) := by
  refine ⟨[.read s], rfl, .read hs, ?_⟩
  rintro _ rfl
  exact List.mem_singleton_self _

theorem step {program : DiskM α} {next : α → DiskM β} {a : α} {result : Except Failure β}
    (first : Scans n store F program (.ok a)) (rest : Scans n store G (next a) result) :
    Scans n store (fun s => F s ∨ G s) (program >>= next) result := by
  obtain ⟨t, none, does, reads⟩ := first
  obtain ⟨u, none', does', reads'⟩ := rest
  have rest : Does n (store.after t.writes) (next a) result u := by rwa [none]
  refine ⟨t ++ u, by simp [none, none'], does.step rest, fun s hs => ?_⟩
  exact List.mem_append.mpr (hs.imp (reads s) (reads' s))

/-- A step that only prepares the scan. -/
theorem andThen {program : DiskM α} {next : α → DiskM β} {a : α} {result : Except Failure β}
    (first : Runs n store program (.ok a) []) (rest : Scans n store F (next a) result) :
    Scans n store F (program >>= next) result := by
  obtain ⟨t, none, does⟩ := first
  have first : Scans n store (fun _ => False) program (.ok a) := ⟨t, none, does, nofun⟩
  exact (first.step rest).mono fun s hs => .inr hs

/-- A last step that reads nothing that matters. -/
theorem finish {program : DiskM α} {next : α → DiskM β} {a : α} {result : Except Failure β}
    (first : Scans n store F program (.ok a)) (rest : Runs n store (next a) result []) :
    Scans n store F (program >>= next) result := by
  obtain ⟨t, none, does⟩ := rest
  have rest : Scans n store (fun _ => False) (next a) result := ⟨t, none, does, nofun⟩
  exact (first.step rest).mono fun s hs => .inl hs

end Scans

/-- The program ends with `result` after `ws`, and when it reads a sector that it did not read
before, the sector is known or `Q` holds of what was written by then. -/
def Tries (n : Nat) (store : Store) (known : Nat → Prop) (program : DiskM α)
    (result : Except Failure α) (ws : Writes) (Q : Writes → Prop) : Prop :=
  ∃ t : Trace, t.writes = ws ∧ Does n store program result t ∧
    ∀ (before : Trace) (s : Nat) (behind : Trace), t = before ++ .read s :: behind →
      Access.read s ∉ before → known s ∨ Q before.writes

/-- A program that reads known sectors only. Once it has begun it cannot fail. -/
abbrev Settles (n : Nat) (store : Store) (known : Nat → Prop) (program : DiskM α)
    (result : Except Failure α) (ws : Writes) : Prop :=
  Tries n store known program result ws fun _ => False

namespace Tries

variable {n : Nat} {store : Store} {known F : Nat → Prop} {ws vs : Writes} {Q Q' : Writes → Prop}

theorem runs {program : DiskM α} {result : Except Failure α}
    (h : Tries n store known program result ws Q) : Runs n store program result ws := by
  obtain ⟨t, writes, does, -⟩ := h
  exact ⟨t, writes, does⟩

theorem mono {program : DiskM α} {result : Except Failure α}
    (h : Tries n store known program result ws Q) (more : ∀ us, Q us → Q' us) :
    Tries n store known program result ws Q' := by
  obtain ⟨t, writes, does, new⟩ := h
  exact ⟨t, writes, does, fun before s behind ht hs => (new before s behind ht hs).imp_right
    (more before.writes)⟩

/-- What cannot fail can be left at any point that it could fail at. -/
theorem of_settles {program : DiskM α} {result : Except Failure α}
    (h : Settles n store known program result ws) : Tries n store known program result ws Q :=
  h.mono fun _ => False.elim

/-- Requests without a read among them. -/
theorem of_does {program : DiskM α} {result : Except Failure α} {t : Trace}
    (h : Does n store program result t) (none : ∀ s, Access.read s ∉ t) :
    Tries n store known program result t.writes Q := by
  refine ⟨t, rfl, h, fun before s behind ht => absurd ?_ (none s)⟩
  rw [ht]
  simp

/-- A program that writes nothing can stop anywhere. -/
theorem quiet {program : DiskM α} {result : Except Failure α}
    (h : Runs n store program result []) (start : Q []) :
    Tries n store known program result [] Q := by
  obtain ⟨t, writes, does⟩ := h
  refine ⟨t, writes, does, fun before s behind ht _ => .inr ?_⟩
  rw [ht, Trace.writes_append, List.append_eq_nil_iff] at writes
  rwa [writes.1]

theorem done (a : α) : Tries n store known (pure a) (.ok a) [] Q := of_does (.done a) (by simp)

theorem refuse (e : Failure) : Tries n store known (throw e : DiskM α) (.error e) [] Q :=
  of_does (.refuse e) (by simp)

theorem lift (result : Except Failure α) :
    Tries n store known (liftM result : DiskM α) result [] Q := by
  cases result with
  | ok a => exact done a
  | error e => exact refuse e

theorem liftError (result : Except Error α) :
    Tries n store known (liftM result : DiskM α) (result.mapError .error) [] Q := by
  cases result with
  | ok a => exact done a
  | error e => exact refuse (.error e)

/-- A step that ends well, then the rest on the store it leaves. -/
theorem step {program : DiskM α} {next : α → DiskM β} {a : α} {result : Except Failure β}
    (first : Tries n store known program (.ok a) ws Q)
    (rest : Tries n (store.after ws) known (next a) result vs fun us => Q (ws ++ us)) :
    Tries n store known (program >>= next) result (ws ++ vs) Q := by
  obtain ⟨t, rfl, does, new⟩ := first
  obtain ⟨u, rfl, does', new'⟩ := rest
  refine ⟨t ++ u, Trace.writes_append t u, does.step does', fun before s behind ht hs => ?_⟩
  rcases List.append_eq_append_iff.mp ht with ⟨middle, rfl, hu⟩ | ⟨middle, rfl, hu⟩
  · rw [Trace.writes_append]
    exact new' middle s behind hu fun hm => hs (List.mem_append_right _ hm)
  · cases middle with
    | nil =>
      have := new' [] s behind hu.symm List.not_mem_nil
      simpa using this
    | cons b middle =>
      obtain ⟨rfl, rfl⟩ := List.cons.inj hu
      exact new before s middle rfl hs

/-- What was scanned is known to the rest. -/
theorem scan {program : DiskM α} {next : α → DiskM β} {a : α} {result : Except Failure β}
    (start : Q []) (first : Scans n store F program (.ok a))
    (rest : Tries n store (fun s => known s ∨ F s) (next a) result ws Q) :
    Tries n store known (program >>= next) result ws Q := by
  obtain ⟨t, writes, does, reads⟩ := first
  obtain ⟨u, rfl, does', new⟩ := rest
  have does' : Does n (store.after t.writes) (next a) result u := by rwa [writes]
  refine ⟨t ++ u, by simp [writes], does.step does', fun before s behind ht hs => ?_⟩
  rcases List.append_eq_append_iff.mp ht with ⟨middle, rfl, hu⟩ | ⟨middle, rfl, -⟩
  · rw [Trace.writes_append, writes, List.nil_append]
    have unread : ¬ F s := fun hF => hs (List.mem_append_left _ (reads s hF))
    exact (new middle s behind hu fun hm => hs (List.mem_append_right _ hm)).imp_left fun h =>
      h.resolve_right unread
  · rw [Trace.writes_append, List.append_eq_nil_iff] at writes
    rw [writes.1]
    exact .inr start

/-- A step that ends well and writes nothing, then the rest. -/
theorem andThen {program : DiskM α} {next : α → DiskM β} {a : α} {result : Except Failure β}
    (first : Tries n store known program (.ok a) [] Q)
    (rest : Tries n store known (next a) result ws Q) :
    Tries n store known (program >>= next) result ws Q :=
  step first rest

/-- A last step that writes nothing. -/
theorem finish {program : DiskM α} {next : α → DiskM β} {a : α} {result : Except Failure β}
    (first : Tries n store known program (.ok a) ws Q)
    (rest : Tries n (store.after ws) known (next a) result [] fun us => Q (ws ++ us)) :
    Tries n store known (program >>= next) result ws Q := by
  simpa using step first rest

/-- A step that fails ends the program. -/
theorem stop {program : DiskM α} {next : α → DiskM β} {e : Failure}
    (first : Tries n store known program (.error e) ws Q) :
    Tries n store known (program >>= next) (.error e) ws Q := by
  obtain ⟨t, writes, does, new⟩ := first
  exact ⟨t, writes, does.stop, new⟩

/-- A check that holds the program up. -/
theorem guardFails {c : Prop} [Decidable c] {e : Failure} {next : PUnit → DiskM α}
    {program : DiskM α} (h : c) :
    Tries n store known (if c then throw e >>= next else program) (.error e) [] Q := by
  rw [if_pos h]
  exact stop (refuse e)

/-- A check that lets the program go on. -/
theorem guardPasses {c : Prop} [Decidable c] {first program : DiskM α}
    {result : Except Failure α} (h : ¬ c) (rest : Tries n store known program result ws Q) :
    Tries n store known (if c then first else program) result ws Q := by
  rw [if_neg h]
  exact rest

theorem write {s : Nat} (hs : s < n) (data : Sector) :
    Tries n store known (Disk.write s data) (.ok ()) [(s, data)] Q :=
  of_does (.write hs data) (by simp)

end Tries

namespace Disk

variable {n : Nat} {disk disk' : Disk} {bad : Nat → Bool}

theorem refuses_iff_of_reads (plan : disk.faults = .reads bad) {a : Access} :
    disk.Refuses a ↔ ∃ s, a = .read s ∧ bad s = true := by
  cases a with
  | read s => simp [Refuses, plan, FaultPlan.reads]
  | write s data => simp [Refuses, plan, FaultPlan.reads]
  | sync => simp [Refuses, plan, FaultPlan.reads]

/-- What was read can be read. -/
theorem Serves.readable {t : Trace} (h : disk.Serves n t disk') (plan : disk.faults = .reads bad)
    {s : Nat} (hs : Access.read s ∈ t) : bad s = false := by
  induction h with
  | done => cases hs
  | @next disk a t disk' within passes _ ih =>
    rcases List.mem_cons.mp hs with rfl | hs
    · simpa [refuses_iff_of_reads plan] using passes
    · exact ih ((wrote_serve within).faults_eq.trans plan) hs

end Disk

/-- When some sectors cannot be read, the program comes to its end all the same, or stops where `Q`
holds. -/
theorem Tries.ends {n : Nat} {program : DiskM α} {result : Except Failure α} {ws : Writes}
    {Q : Writes → Prop} {disk : Disk} {bad : Nat → Bool}
    (h : Tries n disk.store (fun _ => False) program result ws Q) (covers : disk.Covers n)
    (plan : disk.faults = .reads bad) :
    (∃ disk', program disk = ending result disk' ∧ disk.Wrote n ws disk') ∨
    ∃ disk' vs, program disk = ending (.error .injected) disk' ∧ disk.Wrote n vs disk' ∧ Q vs := by
  obtain ⟨t, rfl, does, new⟩ := h
  rcases does disk covers rfl with ⟨disk', ends, serves⟩ |
    ⟨before, a, behind, disk', rfl, ends, serves, refused⟩
  · exact .inl ⟨disk', ends, serves.wrote⟩
  · have plan' : disk'.faults = .reads bad := serves.wrote.faults_eq.trans plan
    obtain ⟨s, rfl, unreadable⟩ := (Disk.refuses_iff_of_reads plan').mp refused
    have unread : Access.read s ∉ before := by
      intro hs
      rw [serves.readable plan hs] at unreadable
      cases unreadable
    exact .inr ⟨disk', before.writes, ends, serves.wrote,
      (new before s behind rfl unread).resolve_left id⟩

end SectorFS
