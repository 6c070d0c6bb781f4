import Mathlib.Data.List.Perm.Subperm
import SectorFS.Proofs.Disk.Answers
import SectorFS.Proofs.Disk.Runs
import SectorFS.Proofs.File.Transfer

/-!
# Transfers with a buffer and a cursor

`File.readAt` gives the bytes that it read, and `File.read` and `File.write` give the file with its
cursor moved. A caller has the bytes put into a buffer, and holds one file whose cursor moves in
place: `File.readInto` copies piece by piece, `File.readNext` and `File.writeNext` change the file
in hand. They do the same (`readInto_eq`, `readNext_eq`, `writeNext_eq`), also when a request fails
on the way. `Addresses.transfers` says what it is that they do.
-/

namespace SectorFS

/-- A file in hand and the disk under it, both changed in place. -/
abbrev HandM := EStateM Failure (File × Disk)

instance : MonadLift DiskM HandM where
  monadLift program := fun (file, disk) =>
    match program disk with
    | .ok a disk => .ok a (file, disk)
    | .error e disk => .error e (file, disk)

namespace HandM

theorem get_apply (hand : File × Disk) : (get : HandM _) hand = .ok hand hand := rfl

theorem set_apply (moved hand : File × Disk) : (set moved : HandM _) hand = .ok ⟨⟩ moved := rfl

end HandM

namespace File

/-- Reads the pieces into the buffer, one behind the other from `place` on. -/
def fillPieces (file : File) : List Piece → (place : Nat) → List UInt8 → DiskM (List UInt8)
  | [], _, buffer => return buffer
  | piece :: rest, place, buffer => do
    let data ← Disk.read (← file.sectorOf piece)
    file.fillPieces rest (place + piece.count)
      (overlay buffer place ((data.bytes.drop piece.start).take piece.count))

/-- Fills the buffer from its front with the bytes at `position`, and says how many there were. -/
def readInto (file : File) (position : Nat) (buffer : List UInt8) : DiskM (Nat × List UInt8) := do
  let count := file.clip position buffer.length
  return (count, ← file.fillPieces (Piece.cover position count) 0 buffer)

/-- Moves the cursor of the file in hand. -/
def moveOver (count : Nat) : HandM Unit := do
  let (file, disk) ← get
  set (← file.advance count, disk)

/-- Reads into the buffer at the cursor. -/
def readNext (buffer : List UInt8) : HandM (Nat × List UInt8) := do
  let (file, _) ← get
  let (count, buffer) ← file.readInto file.position buffer
  moveOver count
  return (count, buffer)

/-- Writes at the cursor. -/
def writeNext (bytes : List UInt8) : HandM Nat := do
  let (file, _) ← get
  let count ← file.writeAt file.position bytes
  moveOver count
  return count

variable (file : File) (disk : Disk)

theorem fillPieces_eq {pieces : List Piece} (fits : ∀ piece ∈ pieces, piece.Fits) {place : Nat}
    {buffer : List UInt8} (inside : place ≤ buffer.length) :
    file.fillPieces pieces place buffer = overlay buffer place <$> file.readPieces pieces := by
  induction pieces generalizing place buffer with
  | nil => simp [fillPieces, readPieces, overlay_nil]
  | cons piece rest ih =>
    obtain ⟨first, fits⟩ := List.forall_mem_cons.mp fits
    simp only [fillPieces, readPieces, map_bind, map_pure]
    congr
    funext s
    congr
    funext data
    have length := first.length_part data
    generalize (data.bytes.drop piece.start).take piece.count = part at *
    rw [ih fits, ← length, map_eq_pure_bind]
    · congr
      funext bytes
      exact congrArg pure (overlay_append inside)
    · rw [overlay]
      simp
      omega

/-- The buffer is filled with the bytes that are read, also when reading stops on the way. -/
theorem readInto_eq (position : Nat) (buffer : List UInt8) :
    file.readInto position buffer =
      (fun bytes => (file.clip position buffer.length, overlay buffer 0 bytes)) <$>
        file.readAt position buffer.length := by
  have fits := Piece.fits_of_mem_cover position (file.clip position buffer.length)
  rw [readInto, readAt, file.fillPieces_eq fits (Nat.zero_le _)]
  simp

theorem yields_readPieces (position count : Nat) :
    Yields (file.readPieces (Piece.cover position count)) (·.length = count) := by
  induction position, count using Piece.cover_induction with
  | done position =>
    rw [Piece.cover_zero]
    exact .done rfl
  | step position count more ih =>
    have part := Piece.count_first_le position count
    rw [Piece.cover_cons more]
    refine .andThen fun s => .andThen fun data => .step ih fun bytes length => .done ?_
    rw [List.length_append, (Piece.fits_first position count).length_part, length]
    omega

/-- As many bytes are read as the file has there. -/
theorem yields_readAt (position count : Nat) :
    Yields (file.readAt position count) (·.length = file.clip position count) :=
  file.yields_readPieces position (file.clip position count)

/-- How a transfer ends for the file in hand, which moves only when the transfer ends well. -/
def inHand (deliver : α → β) :
    EStateM.Result Failure Disk (α × File) → EStateM.Result Failure (File × Disk) β
  | .ok (a, moved) disk => .ok (deliver a) (moved, disk)
  | .error e disk => .error e (file, disk)

theorem readNext_eq (buffer : List UInt8) :
    readNext buffer (file, disk) =
      file.inHand (fun bytes => (bytes.length, overlay buffer 0 bytes))
        (file.read buffer.length disk) := by
  have count := file.yields_readAt file.position buffer.length disk
  simp only [readNext, read, readInto_eq, moveOver, bind, EStateM.bind, HandM.get_apply,
    HandM.set_apply, liftM, monadLift, MonadLift.monadLift, Functor.map, EStateM.map]
  cases ends : file.readAt file.position buffer.length disk with
  | error e disk' => rfl
  | ok bytes disk' =>
    rw [← count bytes disk' ends]
    cases moves : file.advance bytes.length <;> simp [moves] <;> rfl

theorem writeNext_eq (bytes : List UInt8) :
    writeNext bytes (file, disk) = file.inHand id (file.write bytes disk) := by
  simp only [writeNext, write, moveOver, bind, EStateM.bind, HandM.get_apply, HandM.set_apply,
    liftM, monadLift, MonadLift.monadLift]
  cases ends : file.writeAt file.position bytes disk with
  | error e disk' => rfl
  | ok count disk' => cases moves : file.advance count <;> simp [moves] <;> rfl

/-! ## No cursor runs over -/

variable {file disk} {count : Nat}

theorem readPieces_seek (position : Nat) (pieces : List Piece) :
    (file.seek position).readPieces pieces = file.readPieces pieces := by
  induction pieces with
  | nil => rfl
  | cons piece rest ih =>
    rw [readPieces, ih]
    rfl

theorem writePieces_seek (position : Nat) (pieces : List Piece) (bytes : List UInt8) :
    (file.seek position).writePieces pieces bytes = file.writePieces pieces bytes := by
  induction pieces generalizing bytes with
  | nil => rfl
  | cons piece rest ih =>
    simp only [writePieces, ih]
    rfl

/-- Transfers at a given place do not look at the cursor. -/
theorem readAt_seek (position : Nat) : (file.seek position).readAt = file.readAt := by
  funext place count
  exact readPieces_seek ..

theorem writeAt_seek (position : Nat) : (file.seek position).writeAt = file.writeAt := by
  funext place bytes
  simp only [writeAt, writePieces_seek]
  rfl

/-- A cursor that moves within the file stays in the range of sizes. -/
theorem position_add_lt (small : file.length < Size.limit) (start : file.position < Size.limit)
    (h : count ≤ file.length - file.position) : file.position + count < Size.limit := by
  omega

theorem advance_of_le (small : file.length < Size.limit) (start : file.position < Size.limit)
    (h : count ≤ file.length - file.position) :
    file.advance count = .ok (file.seek (file.position + count)) := by
  rw [advance, Size.add_of_lt (position_add_lt small start h)]
  rfl

theorem read_eq (small : file.length < Size.limit) (start : file.position < Size.limit)
    (count : Nat) :
    file.read count =
      (fun bytes => (bytes, file.seek (file.position + bytes.length))) <$>
        file.readAt file.position count := by
  rw [read, map_eq_pure_bind]
  apply (file.yields_readAt file.position count).bind_congr
  intro bytes length
  have short := file.clip_le_rest file.position count
  rw [← length] at short
  rw [advance_of_le small start short]
  rfl

theorem write_eq (small : file.length < Size.limit) (start : file.position < Size.limit)
    (bytes : List UInt8) :
    file.write bytes =
      (fun count => (count, file.seek (file.position + count))) <$>
        file.writeAt file.position bytes := by
  have short := file.clip_le_rest file.position bytes.length
  simp only [write, writeAt, bind_assoc, pure_bind, map_bind, map_pure]
  rw [advance_of_le small start short]
  rfl

/-! What holds at the cursor's place holds at the cursor. -/

section
variable {disk' : Disk} {bytes buffer : List UInt8} {e : Failure}
variable (small : file.length < Size.limit) (start : file.position < Size.limit)
include small start

theorem readNext_of_ok (ends : file.readAt file.position buffer.length disk = .ok bytes disk') :
    readNext buffer (file, disk) =
      .ok (bytes.length, overlay buffer 0 bytes)
        (file.seek (file.position + bytes.length), disk') := by
  rw [readNext_eq, read_eq small start, Does.map_of_ok _ ends]
  rfl

theorem readNext_of_error (ends : file.readAt file.position buffer.length disk = .error e disk') :
    readNext buffer (file, disk) = .error e (file, disk') := by
  rw [readNext_eq, read_eq small start, Does.map_of_error _ ends]
  rfl

theorem writeNext_of_ok (ends : file.writeAt file.position bytes disk = .ok count disk') :
    writeNext bytes (file, disk) = .ok count (file.seek (file.position + count), disk') := by
  rw [writeNext_eq, write_eq small start, Does.map_of_ok _ ends]
  rfl

theorem writeNext_of_error (ends : file.writeAt file.position bytes disk = .error e disk') :
    writeNext bytes (file, disk) = .error e (file, disk') := by
  rw [writeNext_eq, write_eq small start, Does.map_of_error _ ends]
  rfl

end

namespace Addresses

variable {n position : Nat} {data : List Nat} (h : file.Addresses n data)
include h

theorem seek (position : Nat) : (file.seek position).Addresses n data :=
  ⟨h.sectorAt, h.length_le, h.nodup, h.lt⟩

theorem length_data_le : data.length ≤ n := by
  have inside : data ⊆ List.range n := fun s hs => List.mem_range.mpr (h.lt s hs)
  simpa using (h.nodup.subperm inside).length_le

/-- A file on a disk is not too long for its cursor. -/
theorem length_lt (covers : disk.Covers n) : file.length < Size.limit := by
  have addressable := covers.addressable
  have := h.length_le
  have := h.length_data_le
  simp only [sectorSize, Disk.offsetLimit, Size.limit] at *
  omega

/-- Reading gives the bytes that the file has there, and changes nothing. -/
theorem ends_readAt (sound : disk.Sound n) (position count : Nat) :
    let bytes := (((disk.store.bytes data).take file.length).drop position).take
      (file.clip position count)
    ∃ seen, file.readAt position count disk = .ok bytes seen ∧
      bytes.length = file.clip position count ∧ disk.Untouched seen := by
  intro bytes
  obtain ⟨seen, reads, nothing⟩ := (h.scans_readAt disk.store position count).runs.ends sound
  have content : ((disk.store.bytes data).take file.length).length = file.length := by
    rw [List.length_take, Store.length_bytes]
    exact Nat.min_eq_left h.length_le
  have same : (((disk.store.bytes data).take file.length).drop position).take count = bytes := by
    rw [List.take_eq_take_iff, List.length_drop, content, clip_eq_min]
    omega
  rw [same] at reads
  exact ⟨seen, reads, file.yields_readAt position count disk bytes seen reads, nothing.untouched⟩

/-- Writing lays data over the bytes that the file has there, and changes no other. -/
theorem ends_writeAt (sound : disk.Sound n) (position : Nat) (bytes : List UInt8) :
    let count := file.clip position bytes.length
    ∃ written, file.writeAt position bytes disk = .ok count written ∧
      disk.image.Laid data position (bytes.take count) written.image := by
  obtain ⟨t, does, lays⟩ := h.does_writeAt disk.store position bytes
  obtain ⟨written, writes, wrote⟩ := (Runs.of_does does).ends sound
  refine ⟨written, writes, wrote.laid sound.covers ?_ lays.whole⟩
  intro w hw
  exact mem_of_mem_touched (lays.mem_of_mem_writes hw)

/-- Reading gives the bytes at `position` that the file has there, in the front of the buffer, and
changes nothing. Writing lays the front of the buffer over these bytes, and changes no other. At the
cursor the same is done, and the cursor moves over these bytes. -/
theorem transfers (sound : disk.Sound n) (start : position < Size.limit) (buffer : List UInt8) :
    let content := (disk.store.bytes data).take file.length
    let count := if file.length ≤ position then 0 else min buffer.length (file.length - position)
    let bytes := (content.drop position).take count
    let cursor := file.seek position
    let moved := file.seek (position + count)
    ∃ seen written : Disk,
      (file.readAt position buffer.length disk = .ok bytes seen ∧
        file.readInto position buffer disk = .ok (count, bytes ++ buffer.drop count) seen ∧
        cursor.read buffer.length disk = .ok (bytes, moved) seen ∧
        readNext buffer (cursor, disk) = .ok (count, bytes ++ buffer.drop count) (moved, seen) ∧
        bytes.length = count ∧ disk.Untouched seen) ∧
      (file.writeAt position buffer disk = .ok count written ∧
        cursor.write buffer disk = .ok (count, moved) written ∧
        writeNext buffer (cursor, disk) = .ok count (moved, written) ∧
        disk.image.Laid data position (buffer.take count) written.image ∧
        (written.store.bytes data).take file.length =
          overlay content position (buffer.take count)) ∧
      position + count < Size.limit := by
  intro content count bytes cursor moved
  have small : cursor.length < Size.limit := h.length_lt sound.covers
  have short : count ≤ file.length - position := file.clip_le_rest position buffer.length
  obtain ⟨seen, reads, length, untouched⟩ : ∃ seen,
      file.readAt position buffer.length disk = .ok bytes seen ∧ bytes.length = count ∧
        disk.Untouched seen := h.ends_readAt sound position buffer.length
  obtain ⟨written, writes, laid⟩ := h.ends_writeAt sound position buffer
  have filled : overlay buffer 0 bytes = bytes ++ buffer.drop count := by
    simp [overlay, length]
  have cursor_reads : cursor.read buffer.length disk = .ok (bytes, moved) seen := by
    have moves : moved = cursor.seek (cursor.position + bytes.length) := by
      rw [length]
      rfl
    rw [read_eq small start, readAt_seek, moves]
    exact Does.map_of_ok _ reads
  have cursor_writes : cursor.write buffer disk = .ok (count, moved) written := by
    rw [write_eq small start, writeAt_seek]
    exact Does.map_of_ok _ writes
  refine ⟨seen, written, ⟨reads, ?_, cursor_reads, ?_, length, untouched⟩,
    ⟨writes, cursor_writes, ?_, laid, ?_⟩, position_add_lt small start short⟩
  · rw [readInto_eq, ← filled]
    exact Does.map_of_ok _ reads
  · rw [readNext_eq, cursor_reads, ← filled, ← length]
    rfl
  · rw [writeNext_eq, cursor_writes]
    rfl
  · have inside : file.length ≤ (disk.store.bytes data).length := by
      rw [Store.length_bytes]
      exact h.length_le
    rw [show written.store.bytes data = _ from laid.bytes_eq]
    exact file.take_overlay_clip inside position buffer

end Addresses

/-- A file of 300 bytes in three sectors behind its index block. -/
def threeSectors : File := ⟨4, ⟨300, 3, ⟨[⟨0, .ofSectors none [1, 2, 3]⟩]⟩⟩, 0⟩

theorem addresses_threeSectors : threeSectors.Addresses 5 [1, 2, 3] where
  sectorAt
    | 0, s, hs => by cases hs; rfl
    | 1, s, hs => by cases hs; rfl
    | 2, s, hs => by cases hs; rfl
  length_le := by decide
  nodup := by decide
  lt := by decide

/-- Two bytes before its end, on a disk of zeros. -/
theorem transfers_threeSectors : ∃ seen written : Disk,
    readNext [9, 8, 7, 6] (threeSectors.seek 298, .blank 5) =
      .ok (2, [0, 0, 7, 6]) (threeSectors.seek 300, seen) ∧
    writeNext [9, 8, 7, 6] (threeSectors.seek 298, .blank 5) =
      .ok 2 (threeSectors.seek 300, written) ∧
    (Disk.blank 5).image.Laid [1, 2, 3] 298 [9, 8] written.image := by
  obtain ⟨seen, written, ⟨-, -, -, reads, -⟩, ⟨-, -, writes, laid, -⟩, -⟩ :=
    addresses_threeSectors.transfers (Disk.sound_blank (by decide))
      (show 298 < Size.limit by decide) [9, 8, 7, 6]
  have length : threeSectors.length = 300 := rfl
  have content : (Disk.blank 5).store.bytes [1, 2, 3] = List.replicate 384 0 := by
    simp [Store.bytes, Sector.zero, sectorSize]
  have last : (((List.replicate 384 (0 : UInt8)).take 300).drop 298).take 2 = [0, 0] := by
    rw [List.take_replicate, List.drop_replicate, List.take_replicate]
    rfl
  refine ⟨seen, written, ?_, ?_, ?_⟩
  · simpa [length, content, last, -List.reduceReplicate, -List.take_replicate,
      -List.drop_replicate] using reads
  · simpa [length] using writes
  · simpa [length] using laid

end File

end SectorFS
