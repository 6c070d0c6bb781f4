import SectorFS.Proofs.Disk.Trace

/-!
# Programs on any disk

What holds of a program whatever the disk is like, sound or not: `Yields` says what it answers if it
answers at all, and `Echoes` that two programs do the same with answers that belong together.
-/

namespace SectorFS

/-! ## What is answered -/

/-- Whatever the disk is like, the program answers nothing but what `post` allows. -/
def Yields (program : DiskM α) (post : α → Prop) : Prop :=
  ∀ disk a disk', program disk = .ok a disk' → post a

namespace Yields

variable {program : DiskM α} {next : α → DiskM β} {post : β → Prop}

theorem done {a : β} (h : post a) : Yields (pure a : DiskM β) post := by
  rintro disk _ _ ⟨⟩
  exact h

theorem refuse (e : Failure) : Yields (throw e : DiskM β) post := nofun

/-- The rest answers for what the first step answers. -/
theorem step {P : α → Prop} (first : Yields program P)
    (rest : ∀ a, P a → Yields (next a) post) : Yields (program >>= next) post := by
  intro disk b disk' h
  cases ends : program disk with
  | ok a middle =>
    rw [Does.bind_of_ok ends] at h
    exact rest a (first disk a middle ends) middle b disk' h
  | error e middle =>
    rw [Does.bind_of_error ends] at h
    cases h

theorem andThen (rest : ∀ a, Yields (next a) post) : Yields (program >>= next) post :=
  step (P := fun _ => True) (fun _ _ _ _ => trivial) fun a _ => rest a

/-- The rest matters only for what the first step can answer. -/
theorem bind_congr {P : α → Prop} {next' : α → DiskM β} (first : Yields program P)
    (same : ∀ a, P a → next a = next' a) : program >>= next = program >>= next' := by
  funext disk
  cases ends : program disk with
  | ok a disk' =>
    rw [Does.bind_of_ok ends, Does.bind_of_ok ends, same a (first disk a disk' ends)]
  | error e disk' => rw [Does.bind_of_error ends, Does.bind_of_error ends]

theorem guard {c : Prop} [Decidable c] {e : Failure} {next : PUnit → DiskM β} {program : DiskM β}
    (rest : Yields program post) : Yields (if c then throw e >>= next else program) post := by
  split
  · exact step (P := fun _ => False) (refuse e) fun _ => False.elim
  · exact rest

theorem liftError {result : Except Error β} (h : ∀ b, result = .ok b → post b) :
    Yields (liftM result : DiskM β) post := by
  cases result with
  | ok b => exact done (h b rfl)
  | error e => exact refuse (.error e)

end Yields

/-! ## Programs that do the same -/

/-- On every disk the programs end in the same place, with answers that belong together or with the
same failure. -/
def Echoes (R : α → β → Prop) (p : DiskM α) (q : DiskM β) : Prop :=
  ∀ disk, (∃ a b disk', p disk = .ok a disk' ∧ q disk = .ok b disk' ∧ R a b) ∨
    ∃ e disk', p disk = .error e disk' ∧ q disk = .error e disk'

namespace Echoes

theorem done {R : α → β → Prop} {a : α} {b : β} (h : R a b) :
    Echoes R (pure a : DiskM α) (pure b) :=
  fun disk => .inl ⟨a, b, disk, rfl, rfl, h⟩

theorem step {Q : α → β → Prop} {R : γ → δ → Prop} {p : DiskM α} {q : DiskM β} {f : α → DiskM γ}
    {g : β → DiskM δ} (first : Echoes Q p q) (rest : ∀ a b, Q a b → Echoes R (f a) (g b)) :
    Echoes R (p >>= f) (q >>= g) := by
  intro disk
  rcases first disk with ⟨a, b, middle, hp, hq, h⟩ | ⟨e, middle, hp, hq⟩
  · rw [Does.bind_of_ok hp, Does.bind_of_ok hq]
    exact rest a b h middle
  · rw [Does.bind_of_error hp, Does.bind_of_error hq]
    exact .inr ⟨e, middle, rfl, rfl⟩

/-- The same step first, then the rest. -/
theorem andThen {R : γ → δ → Prop} {p : DiskM α} {f : α → DiskM γ} {g : α → DiskM δ}
    (rest : ∀ a, Echoes R (f a) (g a)) : Echoes R (p >>= f) (p >>= g) := by
  refine step (Q := Eq) (fun disk => ?_) fun a _ h => h ▸ rest a
  cases ends : p disk with
  | ok a middle => exact .inl ⟨a, a, middle, rfl, rfl, rfl⟩
  | error e middle => exact .inr ⟨e, middle, rfl, rfl⟩

end Echoes

end SectorFS
