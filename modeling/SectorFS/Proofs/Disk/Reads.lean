import SectorFS.Proofs.Disk.Answers
import SectorFS.Proofs.Size

/-!
# Programs that only read

On an arbitrary disk a read may fail: by plan, because there is no such sector, or because the
medium ends before it. `Disk.Reads` is a row of reads that are all served. `Asks disk program post`
says that the program does nothing on this disk but read, and that it ends as `post` allows or with
the first read that fails. The rules below take such a program apart at its steps.
-/

namespace SectorFS

namespace Disk

/-- `disk'` is `disk` after requests that wrote nothing. -/
structure Unwritten (disk disk' : Disk) : Prop where
  sectorCount_eq : disk'.sectorCount = disk.sectorCount
  image_eq : disk'.image = disk.image
  writes_eq : disk'.writes = disk.writes

variable {disk middle disk' : Disk} {s : Nat} {ss ts : List Nat}

theorem Unwritten.refl (disk : Disk) : disk.Unwritten disk := ⟨rfl, rfl, rfl⟩

theorem Unwritten.trans (h : disk.Unwritten middle) (h' : middle.Unwritten disk') :
    disk.Unwritten disk' where
  sectorCount_eq := h'.sectorCount_eq.trans h.sectorCount_eq
  image_eq := h'.image_eq.trans h.image_eq
  writes_eq := h'.writes_eq.trans h.writes_eq

theorem Unwritten.store_eq (h : disk.Unwritten disk') : disk'.store = disk.store :=
  congrArg Image.padded h.image_eq

/-- The first sector count whose sectors cannot all be named by 32 bits. -/
def countLimit : Nat := 0x100000000

/-- A disk of so few sectors checks no more than that it has the sector. -/
theorem check_of_lt (few : disk.sectorCount < countLimit) (s : Nat) :
    disk.check s sectorSize =
      if disk.sectorCount ≤ s then .error (.error (.io .sectorOutOfRange)) else .ok () := by
  have addressable : disk.sectorCount * sectorSize ≤ offsetLimit := by
    simp only [countLimit, sectorSize, offsetLimit] at *
    omega
  rw [check_eq addressable]
  simp

/-- A read gives what the medium holds, or fails as a device does. It writes nothing. -/
theorem read_cases (few : disk.sectorCount < countLimit) (s : Nat) :
    (∃ disk', Disk.read s disk = .ok (disk.store s) disk') ∨
    ∃ cause disk', Disk.read s disk = .error (.error (.io cause)) disk' := by
  by_cases refused : disk.faults.read disk.reads s = true
  · exact .inr ⟨.injected, disk, if_pos refused⟩
  · by_cases there : disk.sectorCount ≤ s
    · refine .inr ⟨.sectorOutOfRange, { disk with reads := s :: disk.reads }, ?_⟩
      simp only [read, readInto, if_neg refused, check_of_lt few, if_pos there]
    · cases found : disk.image.sector? s with
      | none =>
        refine .inr ⟨.shortRead, { disk with reads := s :: disk.reads }, ?_⟩
        simp only [read, readInto, if_neg refused, check_of_lt few, if_neg there, found]
      | some data =>
        have : disk.store s = data := by simp only [store, Image.padded, found]
        refine .inl ⟨{ disk with reads := s :: disk.reads }, ?_⟩
        simp only [read, readInto, if_neg refused, check_of_lt few, if_neg there, found, this]

theorem store_of_read {data : Sector} (h : Disk.read s disk = .ok data disk') :
    data = disk.store s := by
  unfold Disk.read Disk.readInto at h
  split at h
  · cases h
  · revert h
    dsimp only
    split <;> intro h <;> cases h
    rename_i found
    simp only [store, Image.padded, found]

/-- However a read ends, it writes nothing. -/
theorem read_unwritten (result : Except Failure Sector)
    (h : Disk.read s disk = ending result disk') : disk.Unwritten disk' := by
  unfold Disk.read readInto at h
  split at h
  · cases result <;> cases h
    exact .refl disk
  · revert h
    dsimp only
    split <;> intro h <;> cases result <;> cases h <;> exact ⟨rfl, rfl, rfl⟩

/-- Reads of the sectors, one after another, all of them served. -/
inductive Reads : Disk → List Nat → Disk → Prop where
  | done (disk : Disk) : Reads disk [] disk
  | next {disk data middle s ss disk'} : Disk.read s disk = .ok data middle →
      Reads middle ss disk' → Reads disk (s :: ss) disk'

theorem Reads.one {data : Sector} (h : Disk.read s disk = .ok data disk') : disk.Reads [s] disk' :=
  .next h (.done disk')

theorem Reads.trans (h : disk.Reads ss middle) (h' : middle.Reads ts disk') :
    disk.Reads (ss ++ ts) disk' := by
  induction h with
  | done => exact h'
  | next first _ ih => exact .next first (ih h')

theorem Reads.unwritten (h : disk.Reads ss disk') : disk.Unwritten disk' := by
  induction h with
  | done disk => exact .refl disk
  | @next disk data middle s ss disk' first _ ih =>
    have step : disk.Unwritten middle := read_unwritten (.ok data) first
    exact step.trans ih

theorem Reads.few (h : disk.Reads ss disk') (few : disk.sectorCount < countLimit) :
    disk'.sectorCount < countLimit := by
  rw [h.unwritten.sectorCount_eq]
  exact few

/-- Some reads are served, and the next one fails with `cause`. -/
def ReadFails (disk : Disk) (cause : DiskError) (disk' : Disk) : Prop :=
  ∃ ss middle s, disk.Reads ss middle ∧ Disk.read s middle = .error (.error (.io cause)) disk'

theorem ReadFails.unwritten {cause : DiskError} (h : disk.ReadFails cause disk') :
    disk.Unwritten disk' := by
  obtain ⟨ss, middle, s, reads, fails⟩ := h
  exact reads.unwritten.trans (read_unwritten (.error _) fails)

theorem ReadFails.after {cause : DiskError} (h : middle.ReadFails cause disk')
    (reads : disk.Reads ss middle) : disk.ReadFails cause disk' := by
  obtain ⟨ts, last, s, reads', fails⟩ := h
  exact ⟨ss ++ ts, last, s, reads.trans reads', fails⟩

end Disk

/-- The program does nothing but read the disk. It ends as `post` allows, or with the first read
that fails. -/
def Asks (disk : Disk) (program : DiskM α) (post : Except Failure α → Disk → Prop) : Prop :=
  (∃ result ss disk', program disk = ending result disk' ∧ disk.Reads ss disk' ∧
    post result disk') ∨
  ∃ cause disk', program disk = .error (.error (.io cause)) disk' ∧ disk.ReadFails cause disk'

namespace Asks

variable {disk : Disk}

/-- What holds of a program that ends well. -/
theorem of_ok {program : DiskM α} {post : Except Failure α → Disk → Prop} {a : α} {disk' : Disk}
    (h : Asks disk program post) (ends : program disk = .ok a disk') :
    (∃ ss, disk.Reads ss disk') ∧ post (.ok a) disk' := by
  rcases h with ⟨result, ss, middle, ends', reads, h⟩ | ⟨cause, middle, ends', -⟩
  · cases result <;> cases ends.symm.trans ends'
    exact ⟨⟨ss, reads⟩, h⟩
  · cases ends.symm.trans ends'

theorem done {post : Except Failure α → Disk → Prop} {a : α} (h : post (.ok a) disk) :
    Asks disk (pure a) post :=
  .inl ⟨.ok a, [], disk, rfl, .done disk, h⟩

theorem refuse {post : Except Failure α → Disk → Prop} {e : Failure} (h : post (.error e) disk) :
    Asks disk (throw e) post :=
  .inl ⟨.error e, [], disk, rfl, .done disk, h⟩

theorem lift {post : Except Failure α → Disk → Prop} {result : Except Failure α}
    (h : post result disk) : Asks disk (liftM result) post := by
  cases result with
  | ok a => exact done h
  | error e => exact refuse h

/-- A step, then the rest on the disk that it leaves; a failure of the step ends the program. -/
theorem step {program : DiskM α} {next : α → DiskM β} {P : Except Failure α → Disk → Prop}
    {post : Except Failure β → Disk → Prop} (first : Asks disk program P)
    (rest : ∀ a ss middle, program disk = .ok a middle → disk.Reads ss middle → P (.ok a) middle →
      Asks middle (next a) post)
    (stop : ∀ e disk', P (.error e) disk' → post (.error e) disk') :
    Asks disk (program >>= next) post := by
  rcases first with ⟨result, ss, middle, ends, reads, h⟩ | ⟨cause, disk', ends, fails⟩
  · cases result with
    | ok a =>
      rcases rest a ss middle ends reads h with ⟨result, ts, disk', ends', reads', h'⟩ |
        ⟨cause, disk', ends', fails⟩
      · exact .inl ⟨result, ss ++ ts, disk', (Does.bind_of_ok ends).trans ends',
          reads.trans reads', h'⟩
      · exact .inr ⟨cause, disk', (Does.bind_of_ok ends).trans ends', fails.after reads⟩
    | error e => exact .inl ⟨.error e, ss, middle, Does.bind_of_error ends, reads, stop e middle h⟩
  · exact .inr ⟨cause, disk', Does.bind_of_error ends, fails⟩

/-- A calculation that comes out well, then the rest. -/
theorem andThen {result : Except Failure α} {next : α → DiskM β} {a : α}
    {post : Except Failure β → Disk → Prop} (first : result = .ok a)
    (rest : Asks disk (next a) post) : Asks disk (liftM result >>= next) post := by
  rw [first]
  exact rest

/-- A check that holds the program up, or lets it go on. -/
theorem guard {c : Prop} [Decidable c] {e : Failure} {next : PUnit → DiskM α}
    {program : DiskM α} {post : Except Failure α → Disk → Prop}
    (fails : c → post (.error e) disk) (rest : ¬ c → Asks disk program post) :
    Asks disk (if c then throw e >>= next else program) post := by
  by_cases h : c
  · rw [if_pos h]
    exact .inl ⟨.error e, [], disk, rfl, .done disk, fails h⟩
  · rw [if_neg h]
    exact rest h

theorem count {post : Except Failure Nat → Disk → Prop} (h : post (.ok disk.sectorCount) disk) :
    Asks disk Disk.count post :=
  .inl ⟨_, [], disk, rfl, .done disk, h⟩

/-- A read gives what the medium holds. -/
theorem read {P : Except Failure Sector → Disk → Prop} {s : Nat}
    (few : disk.sectorCount < Disk.countLimit)
    (h : ∀ disk', disk.Reads [s] disk' → P (.ok (disk.store s)) disk') :
    Asks disk (Disk.read s) P := by
  rcases Disk.read_cases few s with ⟨disk', ends⟩ | ⟨cause, disk', ends⟩
  · exact .inl ⟨.ok (disk.store s), [s], disk', ends, .one ends, h disk' (.one ends)⟩
  · exact .inr ⟨cause, disk', ends, [], disk, s, .done disk, ends⟩

end Asks

end SectorFS
