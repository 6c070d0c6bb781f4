import SectorFS.Proofs.File.Cursor

/-!
# Transfers that are cut short

A transfer at the cursor ends at the first request that is refused, and the cursor stays where it
is. A read has changed nothing then. A write has filled the first of the sectors that it touches and
no other, so that it can be made again (`Addresses.cut_transfers`): the sectors that it reads back
in part hold new bytes only where it lays the same ones over them.
-/

namespace SectorFS.File

variable {file : File} {n position count : Nat} {data : List Nat} {disk disk' : Disk}
variable {bytes : List UInt8} {t : Trace}

/-- The first `k` of the sectors that hold some of the bytes at `position` hold their part of
`bytes`. Nothing else is new on the second disk. -/
structure Begins (data : List Nat) (position count : Nat) (bytes : List UInt8) (k : Nat)
    (disk disk' : Disk) : Prop where
  laid : disk.image.Laid data position (bytes.take (upTo position count k)) disk'.image
  elsewhere : ∀ s, s ∉ (touched data position count).take k → disk'.store s = disk.store s

/-- Where a write is cut, the sectors before are filled. -/
theorem Lays.begins {k : Nat} (h : Lays data disk.store position count bytes t)
    (covers : disk.Covers n) (wrote : disk.Wrote n (t.writes.take k) disk') :
    Begins data position count bytes k disk disk' where
  laid := by
    apply wrote.laid covers _ (h.stage k)
    intro w hw
    exact mem_of_mem_touched (h.mem_of_mem_writes (List.mem_of_mem_take hw))
  elsewhere := by
    intro s unwritten
    rw [wrote.store_eq covers]
    apply Store.after_apply_of_notMem
    rwa [List.map_take, h.targets]

/-- A write that has begun can be made again, and it is as if it had been made once. -/
theorem Begins.again {k : Nat} {again whole : Image}
    (h : Begins data position count bytes k disk disk')
    (inside : position ≤ data.length * sectorSize)
    (laid_again : disk'.image.Laid data position (bytes.take count) again)
    (laid_whole : disk.image.Laid data position (bytes.take count) whole) : again = whole := by
  have shorter : (bytes.take (upTo position count k)).length ≤ (bytes.take count).length := by
    have := upTo_le position count k
    simp only [List.length_take]
    omega
  exact (h.laid.again laid_again shorter inside).unique laid_whole

namespace Addresses

variable (h : file.Addresses n data)
include h

/-- A write comes to its end, or to a sector that it has not filled. -/
theorem writeAt_cases (covers : disk.Covers n) (position : Nat) (bytes : List UInt8) :
    let count := file.clip position bytes.length
    (∃ disk', file.writeAt position bytes disk = .ok count disk' ∧
      disk.image.Laid data position (bytes.take count) disk'.image) ∨
    ∃ k disk', k < (touched data position count).length ∧
      file.writeAt position bytes disk = .error .injected disk' ∧ disk'.Covers n ∧
      Begins data position count bytes k disk disk' := by
  intro count
  obtain ⟨t, does, lays⟩ := h.does_writeAt disk.store position bytes
  cases does disk covers rfl with
  | inl ended =>
    obtain ⟨disk', ends, serves⟩ := ended
    refine .inl ⟨disk', ends, serves.wrote.laid covers ?_ lays.whole⟩
    intro w hw
    exact mem_of_mem_touched (lays.mem_of_mem_writes hw)
  | inr stopped =>
    obtain ⟨before, a, behind, disk', rfl, ends, serves, -⟩ := stopped
    have length : (touched data position count).length =
        (Trace.writes (before ++ a :: behind)).length := by
      rw [← lays.targets, List.length_map]
    have wrote : disk.Wrote n
        ((Trace.writes (before ++ a :: behind)).take before.writes.length) disk' := by
      rw [Trace.writes_append, List.take_left]
      exact serves.wrote
    refine .inr ⟨before.writes.length, disk', ?_, ends, wrote.covers covers,
      lays.begins covers wrote⟩
    rw [length]
    exact lays.endsInWrite.length_lt

/-- A read comes to its end or is refused, and changes nothing. -/
theorem readAt_cases (covers : disk.Covers n) (position count : Nat) :
    ∃ seen, disk.Untouched seen ∧
      ((∃ bytes, file.readAt position count disk = .ok bytes seen) ∨
        file.readAt position count disk = .error .injected seen) := by
  obtain ⟨result, seen, ws, ends, wrote, nothing, outcome⟩ :=
    (h.scans_readAt disk.store position count).runs.cut covers
  obtain rfl := List.prefix_nil.mp nothing
  refine ⟨seen, wrote.untouched, ?_⟩
  rcases outcome with ⟨rfl, -⟩ | rfl
  · exact .inl ⟨_, ends⟩
  · exact .inr ends

/-- Whatever requests are refused, a write at the cursor comes to its end, or the cursor stays and
fewer sectors are filled than the write touches. Made again without failures it then leaves what it
would have left at once. A read that is refused changes nothing. -/
theorem cut_transfers (covers : disk.Covers n) (start : file.position < Size.limit)
    (buffer : List UInt8) :
    let count := if file.length ≤ file.position then 0
      else min buffer.length (file.length - file.position)
    let moved := file.seek (file.position + count)
    ((∃ disk', writeNext buffer (file, disk) = .ok count (moved, disk') ∧
        disk.image.Laid data file.position (buffer.take count) disk'.image) ∨
      ∃ disk' k, writeNext buffer (file, disk) = .error .injected (file, disk') ∧
        k < (touched data file.position count).length ∧
        Begins data file.position count buffer k disk disk' ∧
        ∃ again whole,
          writeNext buffer (file, disk'.withFaults .none) = .ok count (moved, again) ∧
          writeNext buffer (file, disk.withFaults .none) = .ok count (moved, whole) ∧
          again.image = whole.image) ∧
    ∃ seen, disk.Untouched seen ∧
      ((∃ result, readNext buffer (file, disk) = .ok result (moved, seen)) ∨
        readNext buffer (file, disk) = .error .injected (file, seen)) := by
  intro count moved
  have small : file.length < Size.limit := h.length_lt covers
  have short : count ≤ file.length - file.position := file.clip_le_rest file.position buffer.length
  constructor
  · cases h.writeAt_cases covers file.position buffer with
    | inl ended =>
      obtain ⟨disk', ends, laid⟩ := ended
      exact .inl ⟨disk', writeNext_of_ok small start ends, laid⟩
    | inr stopped =>
      obtain ⟨k, disk', fewer, ends, covers', begins⟩ := stopped
      have retried := h.ends_writeAt covers'.sound_withFaults file.position buffer
      have fresh := h.ends_writeAt covers.sound_withFaults file.position buffer
      obtain ⟨again, ends_again, laid_again⟩ := retried
      obtain ⟨whole, ends_whole, laid_whole⟩ := fresh
      have some : count ≠ 0 := by
        intro none
        rw [show file.clip file.position buffer.length = 0 from none] at fewer
        cases fewer
      have inside : file.position ≤ data.length * sectorSize := by
        have := h.length_le
        omega
      exact .inr ⟨disk', k, writeNext_of_error small start ends, fewer, begins, again, whole,
        writeNext_of_ok small start ends_again, writeNext_of_ok small start ends_whole,
        begins.again inside laid_again laid_whole⟩
  · obtain ⟨seen, untouched, outcome⟩ := h.readAt_cases covers file.position buffer.length
    refine ⟨seen, untouched, ?_⟩
    cases outcome with
    | inl ended =>
      obtain ⟨bytes, ends⟩ := ended
      have length : bytes.length = count := file.yields_readAt _ _ disk bytes seen ends
      have ends_next := readNext_of_ok small start ends
      rw [length] at ends_next
      exact .inl ⟨_, ends_next⟩
    | inr ends => exact .inr (readNext_of_error small start ends)

end Addresses

set_option maxRecDepth 2000 in
/-- Two bytes on either side of the border of two sectors, of which the second cannot be read. -/
theorem cut_transfers_threeSectors :
    let disk := (Disk.blank 5).withFaults (.ofLists [2] [] none false)
    ∃ disk' k again,
      writeNext [1, 2, 3, 4] (threeSectors.seek 126, disk) =
        .error .injected (threeSectors.seek 126, disk') ∧
      k < 2 ∧ Begins [1, 2, 3] 126 4 [1, 2, 3, 4] k disk disk' ∧
      writeNext [1, 2, 3, 4] (threeSectors.seek 126, disk'.withFaults .none) =
        .ok 4 (threeSectors.seek 130, again) := by
  intro disk
  have covers : disk.Covers 5 := (Disk.sound_blank (by decide)).covers.withFaults _
  have clip : (threeSectors.seek 126).clip 126 4 = 4 := by decide
  have cover : Piece.cover 126 4 = [⟨0, 126, 2⟩, ⟨1, 0, 2⟩] := by
    simp [Piece.cover_cons, Piece.first, sectorSize]
  obtain ⟨e, left, pieces⟩ : ∃ e left, (threeSectors.seek 126).writePieces
      [⟨0, 126, 2⟩, ⟨1, 0, 2⟩] [1, 2, 3, 4] disk = .error e left := ⟨_, _, rfl⟩
  have stops : (threeSectors.seek 126).writeAt 126 [1, 2, 3, 4] disk = .error e left := by
    rw [writeAt]
    simp only [List.length_cons, List.length_nil, Nat.zero_add, Nat.reduceAdd, clip, cover]
    exact Does.bind_of_error pieces
  obtain ⟨⟨disk', ends, -⟩ | ⟨disk', k, ends, fewer, begins, again, whole, retried, -⟩, -⟩ :=
    (addresses_threeSectors.seek 126).cut_transfers covers
      (show 126 < Size.limit by decide) [1, 2, 3, 4]
  · rw [writeNext_of_error (by decide) (by decide) stops] at ends
    cases ends
  · exact ⟨disk', k, again, ends, fewer, begins, retried⟩

end SectorFS.File
