import SectorFS.File.Handle
import SectorFS.Proofs.Disk.Trace
import SectorFS.Proofs.File.Bytes

/-!
# The pieces of a transfer

A transfer goes piece by piece, one for each sector that it touches. A write asks for the sector of
a piece, if it keeps some of it, and then writes it. `File.Lays` says what such requests do:
wherever they are cut, the sectors before hold their part of the data and all the others are as they
were.
-/

namespace SectorFS

namespace Piece

/-- The piece lies in one sector. -/
def Fits (piece : Piece) : Prop := piece.start + piece.count ≤ sectorSize

theorem Fits.length_part {piece : Piece} (fits : piece.Fits) (data : Sector) :
    ((data.bytes.drop piece.start).take piece.count).length = piece.count := by
  simp only [List.length_take, List.length_drop, data.length_bytes, Fits] at *
  omega

/-- The part of `count` bytes at `position` that lies in the first sector. -/
def first (position count : Nat) : Piece :=
  ⟨position / sectorSize, position % sectorSize, min count (sectorSize - position % sectorSize)⟩

theorem fits_first (position count : Nat) : (first position count).Fits := by
  have := Nat.mod_lt position (show 0 < sectorSize by decide)
  simp only [Fits, first]
  omega

theorem count_first_le (position count : Nat) : (first position count).count ≤ count :=
  Nat.min_le_left _ _

theorem count_first_pos {count : Nat} (more : count ≠ 0) (position : Nat) :
    0 < (first position count).count := by
  have := Nat.mod_lt position (show 0 < sectorSize by decide)
  simp only [first]
  omega

@[simp] theorem cover_zero (position : Nat) : cover position 0 = [] := by
  rw [cover, dif_pos rfl]

theorem cover_cons {count : Nat} (more : count ≠ 0) (position : Nat) :
    cover position count = first position count ::
      cover (position + (first position count).count) (count - (first position count).count) := by
  rw [cover, dif_neg more]
  rfl

/-- Induction on what a transfer still has to do. -/
theorem cover_induction {motive : Nat → Nat → Prop} (done : ∀ position, motive position 0)
    (step : ∀ position count, count ≠ 0 →
      motive (position + (first position count).count) (count - (first position count).count) →
        motive position count) (position count : Nat) : motive position count := by
  induction count using Nat.strongRecOn generalizing position with
  | ind count ih =>
    by_cases none : count = 0
    · subst none
      exact done position
    · have := count_first_pos none position
      exact step position count none (ih _ (by omega) _)

theorem fits_of_mem_cover (position count : Nat) : ∀ piece ∈ cover position count, piece.Fits := by
  induction position, count using cover_induction with
  | done => simp
  | step position count more ih =>
    rw [cover_cons more, List.forall_mem_cons]
    exact ⟨fits_first position count, ih⟩

/-- The first part, found in the sector that it lies in. -/
theorem take_drop_first {store : Store} {data : List Nat} {position count s : Nat}
    (hs : data[position / sectorSize]? = some s) :
    ((store s).bytes.drop (first position count).start).take (first position count).count =
      ((store.bytes data).drop position).take (first position count).count := by
  have split : position / sectorSize * sectorSize + (first position count).start = position :=
    Nat.div_add_mod' position sectorSize
  have fits := fits_first position count
  rw [Store.bytes_eq_of_getElem? hs, List.drop_take, List.drop_drop, List.take_take, split,
    Nat.min_eq_left]
  simp only [Fits] at fits
  omega

/-- What is asked for a piece in sector `s`: the sector, unless the piece is all of it, and then
that it becomes `sector`. -/
def requests (piece : Piece) (s : Nat) (sector : Sector) : Trace :=
  (if piece.count < sectorSize then [.read s] else []) ++ [.write s sector]

variable {piece : Piece} {s : Nat} {sector : Sector}

@[simp] theorem writes_requests : (piece.requests s sector).writes = [(s, sector)] := by
  simp only [requests]
  split <;> rfl

theorem read_mem_requests {r : Nat} (h : Access.read r ∈ piece.requests s sector) :
    r = s ∧ piece.count < sectorSize := by
  simp only [requests] at h
  split at h
  case isTrue part => simpa [part] using h
  case isFalse => simp at h

theorem endsInWrite_requests_append {t : Trace} (h : t.EndsInWrite) :
    (piece.requests s sector ++ t).EndsInWrite := by
  rw [requests, List.append_assoc, List.singleton_append]
  exact h.append s sector _

end Piece

namespace File

/-- What a piece of a sector becomes. -/
theorem bytes_patch {piece : Piece} {old : Sector} {data : List UInt8}
    (hd : piece.count ≤ data.length) (fits : piece.Fits) :
    (patch piece old data).bytes = overlay old.bytes piece.start (data.take piece.count) := by
  have taken : (data.take piece.count).length = piece.count := by
    rw [List.length_take]
    omega
  rw [patch, overlay, taken]
  apply Sector.bytes_ofBytes
  simp only [List.length_append, List.length_take, List.length_drop, old.length_bytes, Piece.Fits]
    at *
  omega

/-- A piece as large as a sector leaves nothing of what was there before. -/
theorem patch_whole {piece : Piece} {old : Sector} {data : List UInt8}
    (hc : ¬ piece.count < sectorSize) (fits : piece.Fits) (other : Sector) :
    patch piece old data = patch piece other data := by
  have start : piece.start = 0 := by
    simp only [Piece.Fits] at fits
    omega
  have behind (sector : Sector) : sector.bytes.drop (0 + piece.count) = [] :=
    List.drop_eq_nil_of_le (by rw [sector.length_bytes]; omega)
  rw [patch, patch, start, behind old, behind other]
  rfl

/-- A piece is written over its own sector, and then come the others. -/
theorem does_writePieces_cons {file : File} {n s : Nat} {store : Store} {piece : Piece}
    {pieces : List Piece} {bytes : List UInt8} {t : Trace} (hs : file.sectorOf piece = .ok s)
    (hn : s < n) (fits : piece.Fits)
    (rest : Does n (Function.update store s (patch piece (store s) bytes))
      (file.writePieces pieces (bytes.drop piece.count)) (.ok ()) t) :
    Does n store (file.writePieces (piece :: pieces) bytes) (.ok ())
      (piece.requests s (patch piece (store s) bytes) ++ t) := by
  rw [writePieces, hs, Piece.requests, List.append_assoc]
  apply Does.step (t := []) (.done s)
  by_cases part : piece.count < sectorSize
  · rw [if_pos part, if_pos part]
    exact .step (.read hn) (.step (.write hn _) rest)
  · rw [if_neg part, if_neg part, patch_whole part fits .zero]
    apply Does.step (t := []) (.done _)
    apply Does.step (.write hn _)
    rw [patch_whole part fits (store s)]
    exact rest

/-! ## How far a transfer has come -/

/-- The sectors that hold some of the `count` bytes at `position`. -/
def touched (data : List Nat) (position count : Nat) : List Nat :=
  if count = 0 then []
  else (data.drop (position / sectorSize)).take
    ((position + count - 1) / sectorSize + 1 - position / sectorSize)

/-- How many of the `count` bytes at `position` the first `k` of these sectors hold. -/
def upTo (position count k : Nat) : Nat :=
  min count ((position / sectorSize + k) * sectorSize - position)

theorem mem_of_mem_touched {data : List Nat} {position count s : Nat}
    (h : s ∈ touched data position count) : s ∈ data := by
  simp only [touched] at h
  split at h
  · cases h
  · exact List.mem_of_mem_drop (List.mem_of_mem_take h)

theorem touched_cons {data : List Nat} {position count s : Nat} (more : count ≠ 0)
    (hs : data[position / sectorSize]? = some s) :
    let here := (Piece.first position count).count
    touched data position count = s :: touched data (position + here) (count - here) := by
  simp only [Piece.first]
  generalize hhere : min count (sectorSize - position % sectorSize) = here
  obtain ⟨lt, rfl⟩ := List.getElem?_eq_some_iff.mp hs
  rw [touched, if_neg more, List.drop_eq_getElem_cons lt]
  have split := Nat.div_add_mod position sectorSize
  by_cases last : count ≤ sectorSize - position % sectorSize
  · have one : (position + count - 1) / sectorSize + 1 - position / sectorSize = 1 := by
      simp only [sectorSize] at *
      omega
    have behind : count - here = 0 := by omega
    rw [one, behind, touched, if_pos rfl]
    rfl
  · have next : (position + here) / sectorSize = position / sectorSize + 1 := by
      simp only [sectorSize] at *
      omega
    have same : position + here + (count - here) = position + count := by omega
    have number : (position + count - 1) / sectorSize + 1 - position / sectorSize =
        (position + count - 1) / sectorSize + 1 - (position / sectorSize + 1) + 1 := by
      simp only [sectorSize] at *
      omega
    rw [touched, if_neg (by omega), next, same, number, List.take_succ_cons]

@[simp] theorem upTo_zero (position count : Nat) : upTo position count 0 = 0 := by
  have := Nat.div_mul_le_self position sectorSize
  simp only [upTo, Nat.add_zero]
  omega

theorem upTo_le (position count k : Nat) : upTo position count k ≤ count := Nat.min_le_left _ _

theorem upTo_succ (position count k : Nat) :
    let here := (Piece.first position count).count
    upTo position count (k + 1) = here + upTo (position + here) (count - here) k := by
  simp only [upTo, Piece.first, sectorSize]
  omega

/-- All of them are enough. -/
theorem upTo_of_le {position count k : Nat} (h : count ≤ k) : upTo position count k = count := by
  simp only [upTo, sectorSize]
  omega

/-- The requests lay the first `count` of `bytes` over the sectors `data` from `position` on, sector
by sector, and read no others than these. They read none if they write whole sectors. -/
structure Lays (data : List Nat) (store : Store) (position count : Nat) (bytes : List UInt8)
    (t : Trace) : Prop where
  targets : t.writes.map Prod.fst = touched data position count
  stage : ∀ k, (store.after (t.writes.take k)).bytes data =
    overlay (store.bytes data) position (bytes.take (upTo position count k))
  endsInWrite : t.EndsInWrite
  read : ∀ s, Access.read s ∈ t →
    s ∈ data ∧ ¬ (position % sectorSize = 0 ∧ count % sectorSize = 0)

namespace Lays

variable {data : List Nat} {store : Store} {position count s : Nat} {bytes : List UInt8} {t : Trace}

theorem nil (data : List Nat) (store : Store) (position : Nat) (bytes : List UInt8) :
    Lays data store position 0 bytes [] where
  targets := rfl
  stage k := by simp [upTo, overlay_nil]
  endsInWrite := Trace.endsInWrite_nil
  read := nofun

/-- One more sector before the others. -/
theorem cons {sector : Sector} (more : count ≠ 0) (nodup : data.Nodup)
    (hs : data[position / sectorSize]? = some s)
    (inside : position + count ≤ data.length * sectorSize) (enough : count ≤ bytes.length)
    (patched : sector.bytes = overlay (store s).bytes (Piece.first position count).start
      (bytes.take (Piece.first position count).count))
    (rest : Lays data (Function.update store s sector)
      (position + (Piece.first position count).count) (count - (Piece.first position count).count)
      (bytes.drop (Piece.first position count).count) t) :
    Lays data store position count bytes
      ((Piece.first position count).requests s sector ++ t) := by
  have fits := Piece.fits_first position count
  have part := Piece.count_first_le position count
  have laid : Store.bytes (Function.update store s sector) data =
      overlay (store.bytes data) position (bytes.take (Piece.first position count).count) := by
    have split : position / sectorSize * sectorSize + (Piece.first position count).start =
        position := Nat.div_add_mod' position sectorSize
    have fits : (Piece.first position count).start +
        (bytes.take (Piece.first position count).count).length ≤ sectorSize := by
      rw [List.length_take, Nat.min_eq_left (by omega)]
      exact fits
    have := Store.bytes_update nodup hs fits patched
    rwa [split] at this
  constructor
  case targets =>
    rw [touched_cons more hs, ← rest.targets]
    simp
  case stage =>
    intro k
    cases k with
    | zero => simp [overlay_nil]
    | succ k =>
      have room := upTo_le (position + (Piece.first position count).count)
        (count - (Piece.first position count).count) k
      rw [Trace.writes_append, Piece.writes_requests, List.singleton_append, List.take_succ_cons,
        Store.after_cons, rest.stage, laid, overlay_take_add (by omega), upTo_succ]
      rw [Store.length_bytes]
      omega
  case endsInWrite => exact Piece.endsInWrite_requests_append rest.endsInWrite
  case read =>
    intro r hr
    cases List.mem_append.mp hr with
    | inl hr =>
      obtain ⟨rfl, part⟩ := Piece.read_mem_requests hr
      constructor
      · exact List.mem_of_getElem? hs
      · rintro ⟨aligned, multiple⟩
        simp only [Piece.first, sectorSize] at *
        omega
    | inr hr =>
      obtain ⟨mem, part⟩ := rest.read r hr
      constructor
      · exact mem
      · rintro ⟨aligned, multiple⟩
        apply part
        simp only [Piece.first, sectorSize] at *
        omega

theorem mem_of_mem_writes (h : Lays data store position count bytes t) {w : Nat × Sector}
    (hw : w ∈ t.writes) : w.1 ∈ touched data position count :=
  h.targets ▸ List.mem_map_of_mem hw

/-- When all requests are let through, all the bytes are there. -/
theorem whole (h : Lays data store position count bytes t) :
    (store.after t.writes).bytes data =
      overlay (store.bytes data) position (bytes.take count) := by
  have := h.stage (t.writes.length + count)
  rwa [List.take_of_length_le (Nat.le_add_right _ _), upTo_of_le (Nat.le_add_left _ _)] at this

end Lays

end File

end SectorFS
