import SectorFS.Proofs.Disk.Transfers

/-!
# A medium in a file

A host keeps the bytes of a medium in a file with one cursor, which every transfer moves. A request
looks up its sector before it transfers anything, so it does to the file what it does to the image,
wherever the cursor was left (`MediumFile.serves`), and building the device does what preparing the
image does (`MediumFile.builds`). Together: over any file a device that is built takes requests in
any order as a row of sectors (`Disk.emulates`).
-/

namespace SectorFS

/-- A file of the host, open for reading and writing. -/
structure MediumFile where
  bytes : List UInt8
  cursor : Nat

abbrev MediumFileM := EStateM DiskError MediumFile

namespace MediumFile

def seek (position : Nat) : MediumFileM Unit := fun file =>
  .ok () { file with cursor := position }

/-- Fills a buffer of `size` bytes from the cursor on. What is read is passed even if the file ends
before the buffer is full. -/
def readExact (size : Nat) : MediumFileM (List UInt8) := fun file =>
  let data := (file.bytes.drop file.cursor).take size
  let moved := { file with cursor := file.cursor + data.length }
  if data.length < size then .error .shortRead moved else .ok data moved

/-- Writes at the cursor. The file grows when it ends before, with zeros in the gap. -/
def writeAll (data : List UInt8) : MediumFileM Unit := fun file =>
  .ok () ⟨laidOver file.bytes file.cursor data, file.cursor + data.length⟩

def check (n sector size : Nat) : MediumFileM Unit := do
  if n ≤ sector then throw .sectorOutOfRange
  if size ≠ sectorSize then throw .bufferNotOneSector

/-- Makes a request to a device of `n` sectors over the file. -/
def perform (n : Nat) : Transfer → MediumFileM (List UInt8)
  | .read sector size => do
    check n sector size
    seek (sectorSize * sector)
    readExact size
  | .write sector buffer => do
    check n sector buffer.length
    seek (sectorSize * sector)
    writeAll buffer
    return []

/-- Writes `count` sectors of zeros. -/
def writeZeros : (count : Nat) → MediumFileM Unit
  | 0 => return ()
  | count + 1 => do
    writeAll Sector.zero.bytes
    writeZeros count

/-- Makes a device of `n` sectors from the file. -/
def build (n : Nat) (clear : Bool) : MediumFileM Unit := do
  if n = 0 then throw .noSectors
  if clear then
    seek 0
    writeZeros n

/-- The file behind a request, whether that was served or not. -/
def behind (n : Nat) (file : MediumFile) (t : Transfer) : MediumFile :=
  match perform n t file with
  | .ok _ file' => file'
  | .error _ file' => file'

/-- The file behind requests, first to last. -/
def behindAll (n : Nat) (file : MediumFile) (past : List Transfer) : MediumFile :=
  past.foldl (behind n) file

/-- Both end in the same way, and with the same bytes in the file as on the medium. -/
inductive Alike : EStateM.Result DiskError MediumFile α → EStateM.Result Failure Disk α → Prop where
  | ok {a file disk} : file.bytes = disk.image.toBytes → Alike (.ok a file) (.ok a disk)
  | error {cause file disk} : file.bytes = disk.image.toBytes →
      Alike (.error cause file) (.error (.error (.io cause)) disk)

variable {n : Nat} {file : MediumFile} {disk : Disk}

theorem laidOver_of_le {content data : List UInt8} {position : Nat}
    (h : position ≤ content.length) :
    laidOver content position data = overlay content position data := by
  rw [laidOver, overlay, overlay, zeroFilled, List.take_append_of_le_length h, List.drop_append]
  simp

theorem check_eq (n s size : Nat) (file : MediumFile) : check n s size file =
    if n ≤ s then .error .sectorOutOfRange file
    else if size ≠ sectorSize then .error .bufferNotOneSector file
    else .ok () file := by
  by_cases there : n ≤ s
  · simp only [check, there, if_true]
    rfl
  · by_cases whole : size = sectorSize
    · simp only [check, there, whole, ne_eq, not_true_eq_false, if_false]
      rfl
    · simp only [check, there, whole, ne_eq, not_false_eq_true, if_true, if_false]
      rfl

/-- A request that is refused does not touch the file. -/
theorem perform_refused {t : Transfer} (h : n ≤ t.sector ∨ t.size ≠ sectorSize) :
    perform n t file =
      .error (if n ≤ t.sector then .sectorOutOfRange else .bufferNotOneSector) file := by
  have refused : check n t.sector t.size file =
      .error (if n ≤ t.sector then .sectorOutOfRange else .bufferNotOneSector) file := by
    rw [check_eq]
    by_cases there : n ≤ t.sector
    · simp only [there, if_true]
    · simp only [there, h.resolve_left there, ne_eq, not_false_eq_true, if_true, if_false]
  cases t with
  | read s size =>
    change check n s size file = _ at refused
    simp only [perform, bind, EStateM.bind, refused]
  | write s buffer =>
    change check n s buffer.length file = _ at refused
    simp only [perform, bind, EStateM.bind, refused]

theorem check_passes {s : Nat} (h : s < n) : check n s sectorSize file = .ok () file := by
  rw [check_eq, if_neg (Nat.not_le.mpr h), if_neg (not_not.mpr rfl)]

theorem perform_read {s : Nat} (h : s < n) : perform n (.read s sectorSize) file =
    readExact sectorSize { file with cursor := sectorSize * s } := by
  simp only [perform, bind, EStateM.bind, check_passes h, seek]

theorem perform_write {s : Nat} {buffer : List UInt8} (h : s < n)
    (whole : buffer.length = sectorSize) : perform n (.write s buffer) file =
    .ok [] ⟨laidOver file.bytes (sectorSize * s) buffer, sectorSize * s + buffer.length⟩ := by
  simp only [perform, bind, EStateM.bind, whole, check_passes h, seek, writeAll]
  rfl

/-- A request does to the file what it does to the image, wherever the cursor is. -/
theorem serves (plain : disk.Plain n) (same : file.bytes = disk.image.toBytes) (t : Transfer) :
    Alike (perform n t file) (t.perform disk) := by
  have array := plain.sectorArray
  by_cases refused : n ≤ t.sector ∨ t.size ≠ sectorSize
  · obtain ⟨cause, ends, rfl, -, kept⟩ := array.refuses t refused
    rw [ends, perform_refused refused]
    apply Alike.error
    rw [kept, same]
  · obtain ⟨inside, whole⟩ := not_or.mp refused
    cases t with
    | write s buffer =>
      have inside : s < n := Nat.not_le.mp inside
      have whole : buffer.length = sectorSize := not_not.mp whole
      obtain ⟨ends, written⟩ := array.writes s buffer inside whole
      rw [ends, perform_write inside whole]
      apply Alike.ok
      rw [written, same]
    | read s size =>
      have below : s < n := Nat.not_le.mp inside
      obtain rfl : size = sectorSize := not_not.mp whole
      have made : readExact sectorSize { file with cursor := sectorSize * s } =
          let moved := ⟨file.bytes, sectorSize * s + (sectorBytes file.bytes s).length⟩
          if (sectorBytes file.bytes s).length < sectorSize then .error .shortRead moved
          else .ok (sectorBytes file.bytes s) moved := rfl
      rw [perform_read below, made]
      by_cases long : sectorSize * (s + 1) ≤ disk.image.toBytes.length
      · obtain ⟨ends, kept⟩ := array.reads s below long
        have full : ¬ (sectorBytes file.bytes s).length < sectorSize := by
          rw [length_sectorBytes_lt_iff, same]
          exact Nat.not_lt.mpr long
        rw [ends, if_neg full, same]
        apply Alike.ok
        rw [kept]
      · have short := Nat.not_le.mp long
        obtain ⟨cause, ends, rfl, -, kept⟩ := array.reads_short s below short
        have part : (sectorBytes file.bytes s).length < sectorSize := by
          rw [length_sectorBytes_lt_iff, same]
          exact short
        rw [ends, if_pos part]
        apply Alike.error
        rw [kept, same]

theorem bytes_behind (plain : disk.Plain n) (same : file.bytes = disk.image.toBytes)
    (t : Transfer) : (file.behind n t).bytes = (disk.behind t).image.toBytes := by
  have alike := serves plain same t
  unfold behind Disk.behind
  generalize perform n t file = outcome at alike
  generalize t.perform disk = outcome' at alike
  cases alike with
  | ok same => exact same
  | error same => exact same

/-- The bytes stay those of the medium, whatever is asked for. -/
theorem bytes_behindAll (plain : disk.Plain n) (same : file.bytes = disk.image.toBytes)
    (past : List Transfer) :
    (file.behindAll n past).bytes = (disk.behindAll past).image.toBytes := by
  induction past generalizing file disk with
  | nil => exact same
  | cons t past ih => exact ih (plain.behind t) (bytes_behind plain same t)

/-- After any requests a file answers the next one as the medium does. -/
theorem serves_behind (plain : disk.Plain n) (same : file.bytes = disk.image.toBytes)
    (past : List Transfer) (t : Transfer) :
    Alike (perform n t (file.behindAll n past)) (t.perform (disk.behindAll past)) :=
  serves (plain.behindAll past) (bytes_behindAll plain same past) t

/-! ## Building -/

theorem writeZeros_eq (count : Nat) {content : List UInt8} {position : Nat}
    (h : position ≤ content.length) : writeZeros count ⟨content, position⟩ =
      .ok () ⟨overlay content position (List.replicate (sectorSize * count) 0),
        position + sectorSize * count⟩ := by
  induction count generalizing content position with
  | zero =>
    rw [Nat.mul_zero, List.replicate_zero, overlay_nil]
    rfl
  | succ count ih =>
    have zeros : Sector.zero.bytes = List.replicate sectorSize 0 := rfl
    have split : List.replicate (sectorSize * (count + 1)) (0 : UInt8) =
        Sector.zero.bytes ++ List.replicate (sectorSize * count) 0 := by
      rw [zeros, List.replicate_append_replicate, Nat.mul_succ, Nat.add_comm]
    have first : position + Sector.zero.bytes.length ≤
        (overlay content position Sector.zero.bytes).length := by
      simp only [overlay, List.length_append, List.length_take]
      omega
    have rest := ih first
    simp only [writeZeros, bind, EStateM.bind, writeAll, laidOver_of_le h, rest]
    rw [overlay_append h, ← split, Sector.zero.length_bytes, Nat.mul_succ]
    congr 2
    omega

/-- Building a device leaves the bytes that an image is prepared to have, or does nothing. -/
theorem builds (file : MediumFile) (n : Nat) (clear : Bool) :
    match Disk.prepare (.ofBytes file.bytes) n clear with
    | .ok start => ∃ cursor, build n clear file = .ok () ⟨start.toBytes, cursor⟩
    | .error cause => build n clear file = .error cause file := by
  by_cases none : n = 0
  · subst none
    rfl
  · rw [Disk.prepare, if_neg none]
    cases clear with
    | false =>
      refine ⟨file.cursor, ?_⟩
      change build n false file = .ok () ⟨(Image.ofBytes file.bytes).toBytes, file.cursor⟩
      rw [Image.toBytes_ofBytes, build, if_neg none]
      rfl
    | true =>
      refine ⟨0 + sectorSize * n, ?_⟩
      change build n true file =
        .ok () ⟨((Image.ofBytes file.bytes).clear n).toBytes, 0 + sectorSize * n⟩
      have zeros := writeZeros_eq n (Nat.zero_le file.bytes.length)
      rw [Image.toBytes_clear, Image.toBytes_ofBytes, build, if_neg none]
      simp only [if_true, bind, EStateM.bind, seek, zeros]
      simp [overlay]

end MediumFile

namespace Disk

open MediumFile (Alike)

/-- A device over a file of the host takes requests in any order. Without sectors it is not built;
clearing puts zeros for all of its sectors. Then each request has its effect on the bytes, whatever
was asked for before and wherever that left the cursor, and a read that is served gives what was
last written to its sector, or else what the first bytes had there, with zeros behind them. -/
theorem emulates (file : MediumFile) (n : Nat) (clear : Bool)
    (small : sectorSize * n < 0x8000000000000000) :
    (n = 0 → prepare (.ofBytes file.bytes) n clear = .error .noSectors ∧
      MediumFile.build n clear file = .error .noSectors file) ∧
    (n ≠ 0 → ∃ start built, prepare (.ofBytes file.bytes) n clear = .ok start ∧
      MediumFile.build n clear file = .ok () built ∧ built.bytes = start.toBytes ∧
      start.toBytes = (if clear then
        List.replicate (sectorSize * n) 0 ++ file.bytes.drop (sectorSize * n) else file.bytes) ∧
      ∀ past : List Transfer, ((attach start n .none).behindAll past).SectorArray n ∧
        (built.behindAll n past).bytes = ((attach start n .none).behindAll past).image.toBytes ∧
        (∀ t : Transfer, Alike (MediumFile.perform n t (built.behindAll n past))
          (t.perform ((attach start n .none).behindAll past))) ∧
        ∀ s data disk', (Transfer.read s sectorSize).perform
            ((attach start n .none).behindAll past) = .ok data disk' →
          data = (Transfer.latest? n s past).getD
            (sectorBytes (zeroFilled start.toBytes (sectorSize * (s + 1))) s)) := by
  have builds := MediumFile.builds file n clear
  constructor
  · intro none
    have refused : prepare (.ofBytes file.bytes) n clear = .error .noSectors := if_pos none
    rw [refused] at builds
    exact ⟨refused, builds⟩
  · intro some
    have prepared := prepare_of_ne (.ofBytes file.bytes) some clear
    have bytes := toBytes_prepared (.ofBytes file.bytes) n clear
    rw [Image.toBytes_ofBytes] at bytes
    generalize (if clear then (Image.ofBytes file.bytes).clear n else .ofBytes file.bytes) =
      start at prepared bytes
    rw [prepared] at builds
    obtain ⟨cursor, built⟩ := builds
    have plain := plain_attach start small
    refine ⟨start, _, prepared, built, rfl, bytes, fun past => ⟨?_, ?_, fun t => ?_, ?_⟩⟩
    · exact (plain.behindAll past).sectorArray
    · exact MediumFile.bytes_behindAll plain rfl past
    · exact MediumFile.serves_behind plain rfl past t
    · exact fun s data disk' => plain.eq_latest past

/-- A file of a sector and two bytes, its cursor at the fifth, under a disk of three sectors. -/
theorem emulates_three_over_one : sectorSize * 3 < 0x8000000000000000 ∧
    ∃ start built, prepare (.ofBytes (List.replicate 130 7)) 3 false = .ok start ∧
      MediumFile.build 3 false ⟨List.replicate 130 7, 5⟩ = .ok () built ∧
      built.bytes = start.toBytes ∧ start.toBytes = List.replicate 130 7 ∧
      ∀ past : List Transfer, ((attach start 3 .none).behindAll past).SectorArray 3 ∧
        (built.behindAll 3 past).bytes = ((attach start 3 .none).behindAll past).image.toBytes ∧
        (∀ t : Transfer, Alike (MediumFile.perform 3 t (built.behindAll 3 past))
          (t.perform ((attach start 3 .none).behindAll past))) ∧
        ∀ s data disk', (Transfer.read s sectorSize).perform
            ((attach start 3 .none).behindAll past) = .ok data disk' →
          data = (Transfer.latest? 3 s past).getD
            (sectorBytes (zeroFilled start.toBytes (sectorSize * (s + 1))) s) := by
  have small : sectorSize * 3 < 0x8000000000000000 := by decide
  exact ⟨small, (emulates ⟨List.replicate 130 7, 5⟩ 3 false small).2 (by decide)⟩

end Disk

end SectorFS
