import SectorFS.Proofs.Disk.Tries
import SectorFS.Proofs.File.Pieces
import SectorFS.Proofs.Size

/-!
# Transfers between a file and its sectors

`File.Addresses` says which sectors a file's bytes lie in. For such a file

* `Addresses.scans_readAt` reads the bytes at any place, as far as the file reaches, from all the
  sectors that they lie in;
* `Addresses.settles_writeAt` lays data over them, and over nothing else: its writes are for data
  sectors only, and what they leave there is an `overlay` of what was there before. It reads what it
  writes in part, and nothing when it writes whole sectors.
-/

namespace SectorFS

namespace File

/-- The bytes of the file lie in the sectors `data`, in this order, all of them below `n`. -/
structure Addresses (file : File) (n : Nat) (data : List Nat) : Prop where
  sectorAt : ∀ i s, data[i]? = some s → file.header.sectorAt (i * sectorSize) = .ok s
  length_le : file.length ≤ data.length * sectorSize
  nodup : data.Nodup
  lt : ∀ s ∈ data, s < n

/-- A transfer reaches no further than the file. -/
theorem clip_eq_min (file : File) (position count : Nat) :
    file.clip position count = min count (file.length - position) := by
  unfold clip
  split <;> omega

theorem clip_le (file : File) (position count : Nat) : file.clip position count ≤ count := by
  rw [clip_eq_min]
  exact Nat.min_le_left _ _

theorem clip_le_rest (file : File) (position count : Nat) :
    file.clip position count ≤ file.length - position := by
  rw [clip_eq_min]
  exact Nat.min_le_right _ _

/-- What is written stays within the file. -/
theorem take_overlay_clip (file : File) {content : List UInt8} (h : file.length ≤ content.length)
    (position : Nat) (bytes : List UInt8) :
    let written := bytes.take (file.clip position bytes.length)
    (overlay content position written).take file.length =
      overlay (content.take file.length) position written := by
  intro written
  have taken : written.length = file.clip position bytes.length := by
    rw [List.length_take]
    exact Nat.min_eq_left (file.clip_le _ _)
  have rest := file.clip_le_rest position bytes.length
  by_cases none : written.length = 0
  · simp [List.length_eq_zero_iff.mp none, overlay_nil]
  · exact take_overlay (by omega) h

/-- The sector holds some of the `count` bytes at `position`. -/
def Spans (data : List Nat) (position count s : Nat) : Prop :=
  ∃ j, position ≤ j ∧ j < position + count ∧ data[j / sectorSize]? = some s

namespace Addresses

variable {file : File} {n : Nat} {data : List Nat} (h : file.Addresses n data)
include h

theorem sectorOf_first {position s : Nat} (hs : data[position / sectorSize]? = some s)
    (count : Nat) : file.sectorOf (Piece.first position count) = .ok s := h.sectorAt _ s hs

theorem exists_sector {position : Nat} (hp : position < data.length * sectorSize) :
    ∃ s, data[position / sectorSize]? = some s ∧ s ∈ data ∧ s < n := by
  have lt : position / sectorSize < data.length := Nat.div_lt_of_lt_mul (by rwa [Nat.mul_comm])
  exact ⟨data[position / sectorSize], List.getElem?_eq_getElem lt, List.getElem_mem lt,
    h.lt _ (List.getElem_mem lt)⟩

theorem scans_readPieces (store : Store) (position count : Nat)
    (inside : count ≤ data.length * sectorSize - position) :
    Scans n store (Spans data position count) (file.readPieces (Piece.cover position count))
      (.ok (((store.bytes data).drop position).take count)) := by
  induction position, count using Piece.cover_induction with
  | done position =>
    rw [Piece.cover_zero]
    exact (Scans.done _).mono fun t ⟨j, _, _, _⟩ => by omega
  | step position count more ih =>
    obtain ⟨s, hs, -, hn⟩ := h.exists_sector (show position < _ by omega)
    have part := Piece.count_first_le position count
    have rest := ih (by omega)
    rw [Piece.cover_cons more, readPieces, h.sectorOf_first hs]
    refine .mono (.andThen (.lift _) (.step (.read hn) (rest.finish ?_))) ?_
    · have whole : (Piece.first position count).count +
          (count - (Piece.first position count).count) = count := by omega
      rw [Piece.take_drop_first hs, ← List.drop_drop, ← List.take_add, whole]
      exact .done _
    · rintro t ⟨j, from_position, before_end, ht⟩
      by_cases first : j < position + (Piece.first position count).count
      · have same : j / sectorSize = position / sectorSize := by
          simp only [Piece.first, sectorSize] at *
          omega
        rw [same, hs] at ht
        exact .inl (Option.some.inj ht).symm
      · exact .inr ⟨j, by omega, by omega, ht⟩

/-- Reading gives the file's bytes at the place, none at or past its end. -/
theorem scans_readAt (store : Store) (position count : Nat) :
    Scans n store (Spans data position (file.clip position count)) (file.readAt position count)
      (.ok ((((store.bytes data).take file.length).drop position).take count)) := by
  have bound := file.clip_le_rest position count
  have length := h.length_le
  have := h.scans_readPieces store position (file.clip position count) (by omega)
  have same : (((store.bytes data).take file.length).drop position).take count =
      ((store.bytes data).drop position).take (file.clip position count) := by
    rw [List.drop_take, List.take_take, clip_eq_min]
  rw [same]
  exact this

/-- Writing lays data over the sectors' bytes, sector by sector. -/
theorem does_writePieces (store : Store) (position count : Nat) (bytes : List UInt8)
    (inside : count ≤ data.length * sectorSize - position) (enough : count ≤ bytes.length) :
    ∃ t, Does n store (file.writePieces (Piece.cover position count) bytes) (.ok ()) t ∧
      Lays data store position count bytes t := by
  induction position, count using Piece.cover_induction generalizing store bytes with
  | done position =>
    rw [Piece.cover_zero]
    exact ⟨[], .done (), .nil data store position bytes⟩
  | step position count more ih =>
    obtain ⟨s, hs, -, hn⟩ := h.exists_sector (show position < _ by omega)
    have fits := Piece.fits_first position count
    have part := Piece.count_first_le position count
    rw [Piece.cover_cons more]
    obtain ⟨t, does, lays⟩ := ih
      (Function.update store s (patch (Piece.first position count) (store s) bytes))
      (bytes.drop (Piece.first position count).count) (by omega) (by rw [List.length_drop]; omega)
    refine ⟨_, does_writePieces_cons (h.sectorOf_first hs count) hn fits does, ?_⟩
    apply Lays.cons more h.nodup hs (by omega) enough _ lays
    exact bytes_patch (by omega) fits

theorem does_writeAt (store : Store) (position : Nat) (bytes : List UInt8) :
    ∃ t, Does n store (file.writeAt position bytes) (.ok (file.clip position bytes.length)) t ∧
      Lays data store position (file.clip position bytes.length) bytes t := by
  have bound := file.clip_le_rest position bytes.length
  have length := h.length_le
  obtain ⟨t, does, lays⟩ := h.does_writePieces store position (file.clip position bytes.length)
    bytes (by omega) (file.clip_le position bytes.length)
  refine ⟨t, ?_, lays⟩
  rw [writeAt, ← List.append_nil t]
  exact does.step (.done _)

/-- Writing lays data over the file's bytes and over nothing else. Sectors that are written in part
have to be known. -/
theorem settles_writeAt {K : Nat → Prop} (store : Store) (position : Nat) (bytes : List UInt8)
    (quiet : position % sectorSize = 0 ∧ file.clip position bytes.length % sectorSize = 0 ∨
      ∀ s ∈ data, K s) :
    ∃ ws : Writes,
      Settles n store K (file.writeAt position bytes)
        (.ok (file.clip position bytes.length)) ws ∧
      (∀ w ∈ ws, w.1 ∈ data) ∧
      (store.after ws).bytes data =
        overlay (store.bytes data) position (bytes.take (file.clip position bytes.length)) := by
  obtain ⟨t, does, lays⟩ := h.does_writeAt store position bytes
  refine ⟨t.writes, ⟨t, rfl, does, ?_⟩, ?_, lays.whole⟩
  · rintro before s behind rfl -
    obtain ⟨mem, part⟩ := lays.read s (by simp)
    exact .inl (quiet.resolve_left part s mem)
  · intro w hw
    exact mem_of_mem_touched (lays.mem_of_mem_writes hw)

end Addresses

end File

end SectorFS
