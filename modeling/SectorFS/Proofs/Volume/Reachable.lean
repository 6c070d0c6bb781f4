import SectorFS.Proofs.Volume.Effect
import SectorFS.Proofs.Volume.Observe

/-!
# What every run keeps

A volume is `Mounted` on a disk when a catalog is laid out there and the volume is over it.
Formatting mounts a volume (`exists_format`), every action keeps it mounted (`Mounted.act`), so it
is mounted at the end of every run (`Run.mounted`).
-/

namespace SectorFS

namespace Volume

/-- The disk holds the catalog `c`, and the volume is over it. -/
structure Mounted (volume : Volume) (disk : Disk) (n : Nat) (c : Catalog) (map : FreeMap) :
    Prop where
  sound : disk.Sound n
  laidOut : c.LaidOut n disk.store map
  known : volume.Over c n

/-- The names on the disk are those of the catalog. -/
theorem Mounted.toNamespace_eq {volume : Volume} {disk : Disk} {n : Nat} {c : Catalog}
    {map : FreeMap} (m : volume.Mounted disk n c map) : disk.toNamespace = c.toNamespace :=
  m.laidOut.toNamespace_eq m.sound

/-- A volume stays mounted on a disk to which nothing is written. -/
theorem Mounted.of_wrote_nil {volume : Volume} {disk disk' : Disk} {n : Nat} {c : Catalog}
    {map : FreeMap} (m : volume.Mounted disk n c map) (wrote : disk.Wrote n [] disk') :
    volume.Mounted disk' n c map where
  sound := wrote.sound m.sound
  laidOut := by
    rw [wrote.store_eq m.sound.covers]
    exact m.laidOut
  known := m.known

/-- A volume stays mounted on a disk on which an insertion is put in place. -/
theorem Mounted.insertion {volume : Volume} {disk disk' : Disk} {n : Nat} {c : Catalog}
    {map map' : FreeMap} {ins : Catalog.Insertion n c} {ws : Writes}
    (m : volume.Mounted disk n c map) (placed : ins.Placed disk.store ws map')
    (wrote : disk.Wrote n ws disk') : volume.Mounted disk' n ins.result map' where
  sound := wrote.sound m.sound
  laidOut := by
    rw [wrote.store_eq m.sound.covers]
    exact placed.laidOut
  known := m.known.kept placed.kept

variable {n : Nat} {disk : Disk}

/-- Every sound disk of fifteen sectors or more can be formatted. -/
theorem exists_format (large : 15 ≤ n) (small : n ≤ diskLimit) (sound : disk.Sound n) :
    ∃ c map volume disk', format disk = .ok volume disk' ∧ volume.Mounted disk' n c map ∧
      c.toNamespace = .bare ∧ volume.descriptors = [] ∧ volume.nextId = 1 := by
  obtain ⟨ws, map, mapExtent, rootExtent, runs, -, l, -⟩ :=
    Catalog.runs_format large small disk.store
  obtain ⟨disk', ends, wrote⟩ := runs.ends sound
  rw [← wrote.store_eq sound.covers] at l
  exact ⟨.initial mapExtent rootExtent, map, _, disk', ends, ⟨wrote.sound sound, l,
    Catalog.over_ofSystemFiles Catalog.initial_map Catalog.initial_root⟩,
    Catalog.toNamespace_initial, rfl, rfl⟩

/-- An action ends with its effect, and the volume is still mounted. -/
theorem Mounted.act {volume : Volume} {c : Catalog} {map : FreeMap} {action : Action}
    (m : volume.Mounted disk n c map) (fits : action.Fits) :
    ∃ result disk' ws c' map', volume.act action disk = ending result disk' ∧
      disk.Wrote n ws disk' ∧ c.Effect n disk.store volume action result ws c' map' ∧
      (volume.next result).Mounted disk' n c' map' := by
  obtain ⟨result, ws, c', map', runs, effect⟩ := Catalog.runs_act m.laidOut m.known fits
  obtain ⟨disk', ends, wrote⟩ := runs.ends m.sound
  have l := effect.laidOut
  rw [← wrote.store_eq m.sound.covers] at l
  exact ⟨result, disk', ws, c', map', ends, wrote, effect, wrote.sound m.sound, l, effect.known⟩

end Volume

/-- At the end of a run the volume is mounted, and no more numbers were given out than paths opened.
-/
theorem Run.mounted {n : Nat} {past : List Action} {volume : Volume} {disk : Disk}
    (large : 15 ≤ n) (small : n ≤ diskLimit) (run : Run n past volume disk) :
    ∃ c map, volume.Mounted disk n c map ∧ volume.nextId ≤ past.countP Action.opens + 1 ∧
      (past = [] → c.toNamespace = .bare ∧ volume.descriptors = []) := by
  have next {past : List Action} {volume : Volume} {disk disk' : Disk} {action : Action}
      {result : Except Failure (Answer × Volume)}
      (ih : ∃ c map, volume.Mounted disk n c map ∧ volume.nextId ≤ past.countP Action.opens + 1 ∧
        (past = [] → c.toNamespace = .bare ∧ volume.descriptors = []))
      (fits : action.Fits) (ends : volume.act action disk = ending result disk') :
      ∃ c map, (volume.next result).Mounted disk' n c map ∧
        (volume.next result).nextId ≤ (past ++ [action]).countP Action.opens + 1 ∧
        (past ++ [action] = [] →
          c.toNamespace = .bare ∧ (volume.next result).descriptors = []) := by
    obtain ⟨c, map, m, few, -⟩ := ih
    obtain ⟨result', disk'', ws, c', map', ends', -, effect, m'⟩ := m.act fits
    obtain ⟨rfl, rfl⟩ := ending_inj (ends.symm.trans ends')
    refine ⟨c', map', m', ?_, by simp⟩
    have := effect.nextId_le
    rw [List.countP_append, List.countP_singleton]
    omega
  induction run with
  | format sound ends =>
    obtain ⟨c, map, volume', disk'', ends', m, bare, empty, one⟩ :=
      Volume.exists_format large small sound
    rw [ends] at ends'
    cases ends'
    exact ⟨c, map, m, Nat.le_of_eq one, fun _ => ⟨bare, empty⟩⟩
  | @answer _ volume disk action answer volume' disk' _ fits ends ih =>
    have ends : volume.act action disk = ending (.ok (answer, volume')) disk' := ends
    exact next ih fits ends
  | @refusal _ volume disk action cause disk' _ fits ends ih =>
    have ends : volume.act action disk = ending (.error (.error cause)) disk' := ends
    exact next ih fits ends

/-- Actions that keep to their bounds and end in no fault can be carried out in any order. -/
theorem exists_run {n : Nat} {disk : Disk} (large : 15 ≤ n) (small : n ≤ diskLimit)
    (sound : disk.Sound n) {past : List Action} (fits : ∀ action ∈ past, action.Fits)
    (safe : ∀ action ∈ past, ∀ fault, ¬ action.Faults fault) :
    ∃ volume disk', Run n past volume disk' := by
  induction past using List.reverseRecOn with
  | nil =>
    obtain ⟨c, map, volume, disk', ends, -⟩ := Volume.exists_format large small sound
    exact ⟨volume, disk', .format sound ends⟩
  | append_singleton past action ih =>
    obtain ⟨volume, disk', run⟩ := ih (fun a ha => fits a (List.mem_append_left _ ha))
      (fun a ha => safe a (List.mem_append_left _ ha))
    have last : action ∈ past ++ [action] := by simp
    obtain ⟨c, map, m, -⟩ := run.mounted large small
    obtain ⟨result, disk'', ws, c', map', ends, -, effect, -⟩ := m.act (fits action last)
    match result with
    | .ok (answer, volume') => exact ⟨volume', disk'', .answer run (fits action last) ends⟩
    | .error (.error cause) => exact ⟨volume, disk'', .refusal run (fits action last) ends⟩
    | .error (.fault fault) => exact absurd (effect.faults fault rfl) (safe action last fault)

/-- A directory with a file in it, which is opened and written. -/
def sample : List Action :=
  [.request (.makeDirectory "/a"), .request (.create "/a/b" 300), .request (.openPath "/a/b"),
    .request (.write 1 [1, 2, 3]), .request (.seek 1 0)]

theorem exists_run_sample : ∃ volume disk, Run 40 sample volume disk := by
  apply exists_run (by decide) (by decide) (Disk.sound_blank (by decide))
  · simp [sample, Action.Fits, Size.limit]
  · intro action h fault faults
    cases faults with
    | @relative action path takes relative =>
      have absolute : ∀ path ∈ sample.filterMap Action.path?, Path.Absolute path := by decide
      exact relative (absolute path (List.mem_filterMap.mpr ⟨action, h, takes⟩))
    | large large => simp_all [sample, Size.limit, sectorSize]
    | padding => simp [sample] at h

/-- Every action of a run ends in an answer, in a refusal that leaves the volume as it was, or in a
fault that is its caller's to avoid. -/
theorem Run.act_ends {n : Nat} {past : List Action} {volume : Volume} {disk : Disk}
    {action : Action} (large : 15 ≤ n) (small : n ≤ diskLimit) (run : Run n past volume disk)
    (fits : action.Fits) :
    (∃ answer volume' disk', volume.act action disk = .ok (answer, volume') disk') ∨
    (∃ cause disk', volume.act action disk = .error (.error cause) disk') ∨
    ∃ fault disk', volume.act action disk = .error (.fault fault) disk' ∧
      action.Faults fault := by
  obtain ⟨c, map, m, -⟩ := run.mounted large small
  obtain ⟨result, disk', ws, c', map', ends, -, effect, -⟩ := m.act fits
  match result with
  | .ok (reply, volume') => exact .inl ⟨reply, volume', disk', ends⟩
  | .error (.error cause) => exact .inr (.inl ⟨cause, disk', ends⟩)
  | .error (.fault fault) => exact .inr (.inr ⟨fault, disk', ends, effect.faults fault rfl⟩)

theorem act_ends_remove : ∃ volume disk, Run 40 sample volume disk ∧
    ((∃ answer volume' disk', volume.act (.request (.remove "/a/b")) disk =
      .ok (answer, volume') disk') ∨
    (∃ cause disk', volume.act (.request (.remove "/a/b")) disk =
      .error (.error cause) disk') ∨
    ∃ fault disk', volume.act (.request (.remove "/a/b")) disk = .error (.fault fault) disk' ∧
      Action.Faults (.request (.remove "/a/b")) fault) := by
  obtain ⟨volume, disk, run⟩ := exists_run_sample
  exact ⟨volume, disk, run, run.act_ends (by decide) (by decide) trivial⟩

end SectorFS
