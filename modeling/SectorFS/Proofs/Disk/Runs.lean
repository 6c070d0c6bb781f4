import SectorFS.Proofs.Disk.Trace

/-!
# What programs write

`Runs n store program result writes` says how a program ends on every disk of `n` sectors that holds
`store`, and what it writes until then. A sound disk lets it come to this end (`Runs.ends`); when
requests are planned to fail, it may stop before, and has then written a part from the front
(`Runs.cut`). The rules below take a program apart at its steps; a step that writes nothing leaves
the store as it was.
-/

namespace SectorFS

namespace Disk

/-- The medium is as it was, and nothing was written to it in between. -/
def Untouched (disk disk' : Disk) : Prop :=
  disk'.image = disk.image ∧ disk'.writes = disk.writes

theorem Wrote.untouched {n : Nat} {disk disk' : Disk} (h : disk.Wrote n [] disk') :
    disk.Untouched disk' := ⟨h.image_eq, h.writes_eq⟩

end Disk

/-- The program ends with `result` after `writes`, unless a request is refused. -/
def Runs (n : Nat) (store : Store) (program : DiskM α) (result : Except Failure α)
    (writes : Writes) : Prop :=
  ∃ t : Trace, t.writes = writes ∧ Does n store program result t

namespace Runs

variable {n : Nat} {store : Store} {ws vs : Writes}

theorem of_does {program : DiskM α} {result : Except Failure α} {t : Trace}
    (h : Does n store program result t) : Runs n store program result t.writes :=
  ⟨t, rfl, h⟩

/-- A sound disk refuses nothing. -/
theorem ends {program : DiskM α} {result : Except Failure α} {disk : Disk}
    (h : Runs n disk.store program result ws) (sound : disk.Sound n) :
    ∃ disk', program disk = ending result disk' ∧ disk.Wrote n ws disk' := by
  obtain ⟨t, rfl, does⟩ := h
  rcases does disk sound.covers rfl with ⟨disk', ends, serves⟩ |
    ⟨before, a, behind, disk', -, -, serves, refused⟩
  · exact ⟨disk', ends, serves.wrote⟩
  · exact absurd refused ((serves.wrote.sound sound).not_refuses a)

/-- A program that ended well on a sound disk has done what it does. -/
theorem of_ended {program : DiskM α} {result : Except Failure α} {disk disk' : Disk} {a : α}
    (h : Runs n disk.store program result ws) (sound : disk.Sound n)
    (ended : program disk = .ok a disk') : result = .ok a ∧ disk.Wrote n ws disk' := by
  obtain ⟨disk'', ends, wrote⟩ := h.ends sound
  have same : ending result disk'' = ending (.ok a) disk' := ends.symm.trans ended
  obtain ⟨rfl, rfl⟩ := ending_inj same
  exact ⟨rfl, wrote⟩

/-- Whatever is refused, the writes up to there are the first ones. -/
theorem cut {program : DiskM α} {result : Except Failure α} {disk : Disk}
    (h : Runs n disk.store program result ws) (covers : disk.Covers n) :
    ∃ result' disk' vs, program disk = ending result' disk' ∧ disk.Wrote n vs disk' ∧ vs <+: ws ∧
      (result' = result ∧ vs = ws ∨ result' = .error .injected) := by
  obtain ⟨t, rfl, does⟩ := h
  rcases does disk covers rfl with ⟨disk', ends, serves⟩ |
    ⟨before, a, behind, disk', rfl, ends, serves, -⟩
  · exact ⟨result, disk', t.writes, ends, serves.wrote, List.prefix_rfl, .inl ⟨rfl, rfl⟩⟩
  · refine ⟨_, disk', before.writes, ends, serves.wrote, ?_, .inr rfl⟩
    rw [Trace.writes_append]
    exact List.prefix_append _ _

theorem done (a : α) : Runs n store (pure a) (.ok a) [] := of_does (.done a)

theorem refuse (e : Failure) : Runs n store (throw e : DiskM α) (.error e) [] :=
  of_does (.refuse e)

theorem lift (result : Except Failure α) : Runs n store (liftM result : DiskM α) result [] := by
  cases result with
  | ok a => exact done a
  | error e => exact refuse e

theorem liftError (result : Except Error α) :
    Runs n store (liftM result : DiskM α) (result.mapError .error) [] := by
  cases result with
  | ok a => exact done a
  | error e => exact refuse (.error e)

/-- A step that ends well, then the rest on the store it leaves. -/
theorem step {program : DiskM α} {next : α → DiskM β} {a : α} {result : Except Failure β}
    (first : Runs n store program (.ok a) ws)
    (rest : Runs n (store.after ws) (next a) result vs) :
    Runs n store (program >>= next) result (ws ++ vs) := by
  obtain ⟨t, rfl, first⟩ := first
  obtain ⟨u, rfl, rest⟩ := rest
  exact ⟨t ++ u, Trace.writes_append t u, .step first rest⟩

/-- A step that ends well and writes nothing, then the rest. -/
theorem andThen {program : DiskM α} {next : α → DiskM β} {a : α} {result : Except Failure β}
    (first : Runs n store program (.ok a) []) (rest : Runs n store (next a) result ws) :
    Runs n store (program >>= next) result ws :=
  step first rest

/-- A last step that writes nothing. -/
theorem finish {program : DiskM α} {next : α → DiskM β} {a : α} {result : Except Failure β}
    (first : Runs n store program (.ok a) ws)
    (rest : Runs n (store.after ws) (next a) result []) :
    Runs n store (program >>= next) result ws := by
  simpa using step first rest

theorem map {program : DiskM α} {a : α} (f : α → β) (h : Runs n store program (.ok a) ws) :
    Runs n store (f <$> program) (.ok (f a)) ws := by
  obtain ⟨t, rfl, does⟩ := h
  exact ⟨t, rfl, does.map f⟩

/-- A step that fails ends the program. -/
theorem stop {program : DiskM α} {next : α → DiskM β} {e : Failure}
    (first : Runs n store program (.error e) ws) :
    Runs n store (program >>= next) (.error e) ws := by
  obtain ⟨t, rfl, first⟩ := first
  exact ⟨t, rfl, first.stop⟩

/-- A check that holds the program up. -/
theorem guardFails {c : Prop} [Decidable c] {e : Failure} {next : PUnit → DiskM α}
    {program : DiskM α} (h : c) :
    Runs n store (if c then throw e >>= next else program) (.error e) [] := by
  rw [if_pos h]
  exact stop (refuse e)

/-- A check that lets the program go on. -/
theorem guardPasses {c : Prop} [Decidable c] {first program : DiskM α}
    {result : Except Failure α} (h : ¬ c) (rest : Runs n store program result ws) :
    Runs n store (if c then first else program) result ws := by
  rw [if_neg h]
  exact rest

/-- A step that writes nothing, then the rest, which writes nothing either. -/
theorem bind {program : DiskM α} {next : α → DiskM β} {result : Except Failure α}
    {rest : α → Except Failure β} (first : Runs n store program result [])
    (behind : ∀ a, Runs n store (next a) (rest a) []) :
    Runs n store (program >>= next) (result >>= rest) [] := by
  cases result with
  | ok a => exact andThen first (behind a)
  | error e => exact stop first

theorem congr {program program' : DiskM α} {result : Except Failure α}
    (same : ∀ disk : Disk, disk.Covers n → program disk = program' disk)
    (h : Runs n store program' result ws) : Runs n store program result ws := by
  obtain ⟨t, rfl, does⟩ := h
  exact ⟨t, rfl, does.congr same⟩

theorem read {s : Nat} (hs : s < n) : Runs n store (Disk.read s) (.ok (store s)) [] :=
  of_does (.read hs)

theorem sync : Runs n store Disk.sync (.ok ()) [] := of_does .sync

theorem count : Runs n store Disk.count (.ok n) [] := of_does .count

end Runs

end SectorFS
