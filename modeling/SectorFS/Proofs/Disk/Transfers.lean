import Mathlib.Data.List.Induction
import SectorFS.Proofs.Disk.Medium

/-!
# Requests in any order

A device that lets every request through is a row of sectors over a string of bytes, which may be
shorter than the row or longer. What each request does to the bytes is said by `Disk.SectorArray`,
and it holds after all requests before, the refused ones among them (`Disk.Plain.behindAll`). A
sector reads as what was last written to it, and until then as what the bytes had in its place
(`Disk.Plain.eq_latest`).
-/

namespace SectorFS

/-- A request for one sector with a buffer of any length. -/
inductive Transfer where
  | read (sector size : Nat)
  | write (sector : Nat) (buffer : List UInt8)

namespace Transfer

def sector : Transfer → Nat
  | .read sector _ => sector
  | .write sector _ => sector

def size : Transfer → Nat
  | .read _ size => size
  | .write _ buffer => buffer.length

/-- Makes the request. A read gives the bytes of the sector. -/
def perform : Transfer → DiskM (List UInt8)
  | .read sector size => return (← Disk.readInto sector size).bytes
  | .write sector buffer => do
    Disk.writeFrom sector buffer
    return []

/-- What the request writes to the sector `s`, if it is for it and a disk of `n` sectors serves it.
-/
def written? (n s : Nat) : Transfer → Option (List UInt8)
  | .read _ _ => none
  | .write sector buffer =>
    if sector = s ∧ sector < n ∧ buffer.length = sectorSize then some buffer else none

/-- What was last written to the sector `s`. -/
def latest? (n s : Nat) (past : List Transfer) : Option (List UInt8) :=
  (past.filterMap (written? n s)).getLast?

end Transfer

namespace Disk

/-- The disk behind a request, whether that was served or not. -/
def behind (disk : Disk) (t : Transfer) : Disk :=
  match t.perform disk with
  | .ok _ disk' => disk'
  | .error _ disk' => disk'

/-- The disk behind requests, first to last. -/
def behindAll (disk : Disk) (past : List Transfer) : Disk := past.foldl behind disk

/-- What a request does on a disk of `n` sectors that are all a part of one string of bytes. -/
structure SectorArray (n : Nat) (disk : Disk) : Prop where
  refuses : ∀ t : Transfer, n ≤ t.sector ∨ t.size ≠ sectorSize → ∃ cause,
    t.perform disk = .error (.error (.io cause)) (disk.behind t) ∧
    cause = (if n ≤ t.sector then .sectorOutOfRange else .bufferNotOneSector) ∧
    cause.kind = "InvalidInput" ∧ (disk.behind t).image = disk.image
  writes : ∀ s buffer, s < n → buffer.length = sectorSize →
    (Transfer.write s buffer).perform disk = .ok [] (disk.behind (.write s buffer)) ∧
    (disk.behind (.write s buffer)).image.toBytes =
      laidOver disk.image.toBytes (sectorSize * s) buffer
  reads : ∀ s, s < n → sectorSize * (s + 1) ≤ disk.image.toBytes.length →
    (Transfer.read s sectorSize).perform disk =
      .ok (sectorBytes disk.image.toBytes s) (disk.behind (.read s sectorSize)) ∧
    (disk.behind (.read s sectorSize)).image = disk.image
  reads_short : ∀ s, s < n → disk.image.toBytes.length < sectorSize * (s + 1) → ∃ cause,
    (Transfer.read s sectorSize).perform disk =
      .error (.error (.io cause)) (disk.behind (.read s sectorSize)) ∧
    cause = .shortRead ∧ cause.kind = "UnexpectedEof" ∧
    (disk.behind (.read s sectorSize)).image = disk.image

/-- A disk of `n` sectors on which no failures are planned. Its medium may have any length. -/
structure Plain (n : Nat) (disk : Disk) : Prop where
  sectorCount_eq : disk.sectorCount = n
  addressable : n * sectorSize ≤ offsetLimit
  faults_eq : disk.faults = .none

namespace Plain

variable {n : Nat} {disk : Disk} (plain : disk.Plain n)
include plain

theorem check_eq (s size : Nat) : disk.check s size =
    if n ≤ s then .error (.error (.io .sectorOutOfRange))
    else if size ≠ sectorSize then .error (.error (.io .bufferNotOneSector))
    else .ok () := by
  have addressable : disk.sectorCount * sectorSize ≤ offsetLimit := by
    rw [plain.sectorCount_eq]
    exact plain.addressable
  rw [Disk.check_eq addressable, plain.sectorCount_eq]

theorem perform_read (s size : Nat) : (Transfer.read s size).perform disk =
    let served := { disk with reads := s :: disk.reads }
    if n ≤ s then .error (.error (.io .sectorOutOfRange)) served
    else if size ≠ sectorSize then .error (.error (.io .bufferNotOneSector)) served
    else (disk.image.sector? s).elim (.error (.error (.io .shortRead)) served)
      fun data => .ok data.bytes served := by
  have passes : disk.faults.read disk.reads s = false := by
    rw [plain.faults_eq]
    rfl
  have check := plain.check_eq s size
  by_cases there : n ≤ s
  · rw [if_pos there] at check ⊢
    simp only [Transfer.perform, readInto, bind, EStateM.bind, passes, check, Bool.false_eq_true,
      if_false]
  · by_cases whole : size = sectorSize
    · rw [if_neg there, if_neg (not_not.mpr whole)] at check ⊢
      cases found : disk.image.sector? s with
      | none =>
        simp only [Transfer.perform, readInto, bind, EStateM.bind, passes, check, found,
          Bool.false_eq_true, if_false]
        rfl
      | some data =>
        simp only [Transfer.perform, readInto, bind, EStateM.bind, passes, check, found,
          Bool.false_eq_true, if_false]
        rfl
    · rw [if_neg there, if_pos whole] at check ⊢
      simp only [Transfer.perform, readInto, bind, EStateM.bind, passes, check,
        Bool.false_eq_true, if_false]

theorem perform_write (s : Nat) (buffer : List UInt8) : (Transfer.write s buffer).perform disk =
    let served := { disk with writes := s :: disk.writes }
    if n ≤ s then .error (.error (.io .sectorOutOfRange)) served
    else if buffer.length ≠ sectorSize then .error (.error (.io .bufferNotOneSector)) served
    else .ok [] { served with image := disk.image.write s (.ofBytes buffer) } := by
  have passes : disk.faults.write disk.writes s = false := by
    rw [plain.faults_eq]
    rfl
  have check := plain.check_eq s buffer.length
  by_cases there : n ≤ s
  · rw [if_pos there] at check ⊢
    simp only [Transfer.perform, writeFrom, bind, EStateM.bind, passes, check,
      Bool.false_eq_true, if_false]
  · by_cases whole : buffer.length = sectorSize
    · rw [if_neg there, if_neg (not_not.mpr whole)] at check ⊢
      simp only [Transfer.perform, writeFrom, bind, EStateM.bind, passes, check,
        Bool.false_eq_true, if_false]
      rfl
    · rw [if_neg there, if_pos whole] at check ⊢
      simp only [Transfer.perform, writeFrom, bind, EStateM.bind, passes, check,
        Bool.false_eq_true, if_false]

theorem behind_read (s size : Nat) :
    disk.behind (.read s size) = { disk with reads := s :: disk.reads } := by
  rw [behind, plain.perform_read]
  by_cases there : n ≤ s
  · simp only [there, if_true]
  · by_cases whole : size = sectorSize
    · simp only [there, whole, ne_eq, not_true_eq_false, if_false]
      cases disk.image.sector? s with
      | none => rfl
      | some data => rfl
    · simp only [there, whole, ne_eq, not_false_eq_true, if_true, if_false]

theorem behind_write (s : Nat) (buffer : List UInt8) : disk.behind (.write s buffer) =
    { disk with
      image := if s < n ∧ buffer.length = sectorSize then disk.image.write s (.ofBytes buffer)
        else disk.image
      writes := s :: disk.writes } := by
  rw [behind, plain.perform_write]
  by_cases there : n ≤ s
  · have missing : ¬ s < n := Nat.not_lt.mpr there
    simp only [there, missing, false_and, if_true, if_false]
  · have inside : s < n := Nat.not_le.mp there
    by_cases whole : buffer.length = sectorSize
    · simp only [there, inside, whole, ne_eq, not_true_eq_false, and_self, if_true, if_false]
    · simp only [there, whole, ne_eq, not_false_eq_true, and_false, if_true, if_false]

/-- No request changes what the disk is like. -/
theorem behind (t : Transfer) : (disk.behind t).Plain n := by
  cases t with
  | read s size =>
    rw [plain.behind_read]
    exact ⟨plain.sectorCount_eq, plain.addressable, plain.faults_eq⟩
  | write s buffer =>
    rw [plain.behind_write]
    exact ⟨plain.sectorCount_eq, plain.addressable, plain.faults_eq⟩

/-- A sector shows what a request writes to it, and what it showed if the request writes nothing. -/
theorem store_behind (t : Transfer) (s : Nat) :
    ((disk.behind t).store s).bytes = (t.written? n s).getD (disk.store s).bytes := by
  cases t with
  | read i size =>
    rw [plain.behind_read]
    rfl
  | write i buffer =>
    rw [plain.behind_write, Transfer.written?]
    by_cases taken : i < n ∧ buffer.length = sectorSize
    · simp only [store, if_pos taken, Image.padded_write]
      by_cases same : i = s
      · subst same
        simp [taken, Sector.bytes_ofBytes taken.2]
      · rw [Function.update_of_ne (Ne.symm same), if_neg fun h => same h.1, Option.getD_none]
    · rw [if_neg taken, if_neg fun h => taken h.2, Option.getD_none]
      rfl

/-- A plain disk is a row of sectors over a string of bytes. -/
theorem sectorArray : disk.SectorArray n where
  refuses t h := by
    refine ⟨if n ≤ t.sector then .sectorOutOfRange else .bufferNotOneSector, ?_, rfl, ?_, ?_⟩
    · cases t with
      | read s size =>
        rw [plain.perform_read, plain.behind_read]
        by_cases there : n ≤ s
        · simp [Transfer.sector, there]
        · have partial_buffer : size ≠ sectorSize := h.resolve_left there
          simp [Transfer.sector, there, partial_buffer]
      | write s buffer =>
        rw [plain.perform_write, plain.behind_write]
        by_cases there : n ≤ s
        · simp [Transfer.sector, there, Nat.not_lt.mpr there]
        · have partial_buffer : buffer.length ≠ sectorSize := h.resolve_left there
          simp [Transfer.sector, there, partial_buffer]
    · split
      · rfl
      · rfl
    · cases t with
      | read s size => rw [plain.behind_read]
      | write s buffer =>
        rw [plain.behind_write]
        apply if_neg
        rintro ⟨inside, whole⟩
        rcases h with there | partial_buffer
        · exact Nat.not_lt.mpr there inside
        · exact partial_buffer whole
  writes s buffer inside whole := by
    rw [plain.perform_write, plain.behind_write, if_neg (Nat.not_le.mpr inside),
      if_neg (not_not.mpr whole), if_pos ⟨inside, whole⟩, Image.toBytes_write,
      Sector.bytes_ofBytes whole]
    exact ⟨rfl, rfl⟩
  reads s inside long := by
    have found := Image.sector?_of_lt (disk.image.lt_size_iff.mpr long)
    rw [plain.perform_read, plain.behind_read, if_neg (Nat.not_le.mpr inside),
      if_neg (not_not.mpr rfl), found, ← Image.bytes_padded_of_le long]
    exact ⟨rfl, rfl⟩
  reads_short s inside short := by
    rw [plain.perform_read, plain.behind_read, if_neg (Nat.not_le.mpr inside),
      if_neg (not_not.mpr rfl), Image.sector?_eq_none short]
    exact ⟨.shortRead, rfl, rfl, rfl, rfl⟩

theorem behindAll (past : List Transfer) : (disk.behindAll past).Plain n := by
  induction past generalizing disk with
  | nil => exact plain
  | cons t past ih => exact ih (plain.behind t)

/-- A sector shows what was last written to it, and what it showed first if nothing was. -/
theorem store_behindAll (past : List Transfer) (s : Nat) :
    ((disk.behindAll past).store s).bytes =
      (Transfer.latest? n s past).getD (disk.store s).bytes := by
  induction past using List.reverseRecOn with
  | nil => rfl
  | append_singleton past t ih =>
    have last : disk.behindAll (past ++ [t]) = (disk.behindAll past).behind t := by
      simp [Disk.behindAll]
    rw [last, (plain.behindAll past).store_behind, ih]
    simp only [Transfer.latest?, List.filterMap_append]
    cases written : t.written? n s with
    | none => simp [written]
    | some buffer => simp [written]

/-- A read that is served gives what its sector shows. -/
theorem eq_of_perform_read {s : Nat} {data : List UInt8} {disk' : Disk}
    (h : (Transfer.read s sectorSize).perform disk = .ok data disk') :
    data = (disk.store s).bytes := by
  rw [plain.perform_read] at h
  by_cases there : n ≤ s
  · simp [there] at h
  · cases found : disk.image.sector? s with
    | none => simp [there, found] at h
    | some sector =>
      simp only [there, found, ne_eq, not_true_eq_false, if_false] at h
      cases h
      simp [store, Image.padded, found]

/-- After any requests a read that is served gives what was last written to its sector, or else what
the first bytes have there, with zeros behind them. -/
theorem eq_latest (past : List Transfer) {s : Nat} {data : List UInt8} {disk' : Disk}
    (h : (Transfer.read s sectorSize).perform (disk.behindAll past) = .ok data disk') :
    data = (Transfer.latest? n s past).getD
      (sectorBytes (zeroFilled disk.image.toBytes (sectorSize * (s + 1))) s) := by
  rw [(plain.behindAll past).eq_of_perform_read h, plain.store_behindAll, ← Image.bytes_padded]
  rfl

end Plain

/-- A disk over an image has no failures planned. -/
theorem plain_attach (image : Image) {n : Nat} (small : sectorSize * n < 0x8000000000000000) :
    (attach image n .none).Plain n := by
  refine ⟨rfl, ?_, rfl⟩
  rw [Nat.mul_comm]
  exact Nat.le_of_lt_succ small

/-! ## Preparing -/

theorem prepare_of_ne {n : Nat} (image : Image) (some : n ≠ 0) (clear : Bool) :
    prepare image n clear = .ok (if clear then image.clear n else image) := if_neg some

/-- Clearing puts zeros for the bytes of all sectors. -/
theorem toBytes_prepared (image : Image) (n : Nat) (clear : Bool) :
    (if clear then image.clear n else image).toBytes =
      if clear then List.replicate (sectorSize * n) 0 ++ image.toBytes.drop (sectorSize * n)
      else image.toBytes := by
  cases clear with
  | true => exact image.toBytes_clear n
  | false => rfl

end Disk

end SectorFS
