import SectorFS.Directory.Basic
import SectorFS.Proofs.File.Transfer
import SectorFS.Proofs.Word

/-!
# The stored directory

`Directory.ofBytes_toBytes` reads every table back from its bytes, whatever its slots hold, and
`Directory.toBytes_ofBytes` writes back whatever bytes a table was read from. A file with room for
exactly as many slots keeps the table: `Directory.settles_store` puts it there and
`Directory.runs_load` finds it.
-/

namespace SectorFS

namespace Word

theorem ofBytes_toBytes (w : UInt32) : ofBytes (.ofNat w.toNat) (.ofNat (w.toNat / 0x100))
    (.ofNat (w.toNat / 0x10000)) (.ofNat (w.toNat / 0x1000000)) = w := by
  have := decode_toBytes_append w []
  simp only [toBytes, List.append_nil, decode, List.cons.injEq, and_true] at this
  exact this

end Word

namespace Slot

@[simp] theorem length_toBytes (slot : Slot) : slot.toBytes.length = slotSize := by
  simp only [toBytes, List.length_append, Vector.length_toList, Word.length_toBytes]
  rfl

theorem ofBytes_toBytes (slot : Slot) : ofBytes slot.toBytes = slot := by
  obtain ⟨inUse, kind, reserved, sector, name⟩ := slot
  obtain ⟨⟨reserved⟩, hr⟩ := reserved
  obtain ⟨⟨name⟩, hn⟩ := name
  match reserved, hr with
  | [r, r'], _ =>
    have letters : (Vector.ofFn fun i : Fin nameLimit => name.getD i 0) = ⟨⟨name⟩, hn⟩ := by
      apply Vector.ext
      intro i hi
      have : i < name.length := by
        have : name.length = nameLimit := hn
        omega
      simp [this]
    have bytes : toBytes ⟨inUse, kind, ⟨⟨[r, r']⟩, rfl⟩, sector, ⟨⟨name⟩, hn⟩⟩ =
        inUse :: kind :: r :: r' :: .ofNat sector.toNat :: .ofNat (sector.toNat / 0x100) ::
          .ofNat (sector.toNat / 0x10000) :: .ofNat (sector.toNat / 0x1000000) :: name := rfl
    have shift (i : Nat) : 8 + i = i + 8 := Nat.add_comm 8 i
    rw [bytes, ofBytes]
    simp only [shift, List.getD_cons_zero, List.getD_cons_succ, Word.ofBytes_toBytes, letters]
    rfl

/-- Any bytes of a slot are written back as they were read. -/
theorem toBytes_ofBytes {bytes : List UInt8} (whole : bytes.length = slotSize) :
    (ofBytes bytes).toBytes = bytes := by
  match bytes, whole with
  | inUse :: kind :: r :: r' :: a :: b :: c :: d :: name, whole =>
    have letters : (Vector.ofFn fun i : Fin nameLimit => name.getD i 0).toList = name := by
      have length : name.length = nameLimit := by simpa [slotSize, nameLimit] using whole
      apply List.ext_getElem
      · simp [length]
      · intro i inside inside'
        simp [inside']
    have shift (i : Nat) : 8 + i = i + 8 := Nat.add_comm 8 i
    simp only [ofBytes, toBytes, shift, List.getD_cons_zero, List.getD_cons_succ, letters,
      Word.toBytes_ofBytes]
    rfl

end Slot

namespace Directory

/-- The size of a directory's file. -/
theorem fileSize_capacity : fileSize directoryCapacity = .ok (directoryCapacity * slotSize) := rfl

@[simp] theorem length_toBytes (dir : Directory) :
    dir.toBytes.length = dir.capacity * slotSize := by
  obtain ⟨slots⟩ := dir
  induction slots with
  | nil => simp [toBytes, capacity]
  | cons slot slots ih =>
    simp only [toBytes, capacity, List.flatMap_cons, List.length_append, Slot.length_toBytes,
      List.length_cons, Nat.succ_mul] at ih ⊢
    omega

theorem slotsOfBytes_flatMap (slots : List Slot) (rest : List UInt8) :
    slotsOfBytes slots.length (slots.flatMap Slot.toBytes ++ rest) = slots := by
  induction slots with
  | nil => rfl
  | cons slot slots ih =>
    have length := Slot.length_toBytes slot
    rw [List.length_cons, slotsOfBytes, List.flatMap_cons, List.append_assoc, ← length,
      List.take_left, List.drop_left, Slot.ofBytes_toBytes, ih]

/-- A table is read back from its bytes. -/
theorem ofBytes_toBytes (dir : Directory) : ofBytes dir.toBytes = dir := by
  have slots := slotsOfBytes_flatMap dir.slots []
  rw [List.append_nil] at slots
  rw [ofBytes, length_toBytes, Nat.mul_div_cancel _ (by decide)]
  exact congrArg Directory.mk slots

theorem flatMap_slotsOfBytes {count : Nat} {bytes : List UInt8}
    (whole : bytes.length = count * slotSize) :
    (slotsOfBytes count bytes).length = count ∧
      (slotsOfBytes count bytes).flatMap Slot.toBytes = bytes := by
  induction count generalizing bytes with
  | zero =>
    rw [Nat.zero_mul, List.length_eq_zero_iff] at whole
    simp [slotsOfBytes, whole]
  | succ count ih =>
    rw [Nat.succ_mul] at whole
    have first : (bytes.take slotSize).length = slotSize := by
      rw [List.length_take]
      omega
    obtain ⟨length, rest⟩ := @ih (bytes.drop slotSize) (by rw [List.length_drop]; omega)
    simp [slotsOfBytes, length, rest, Slot.toBytes_ofBytes first]

/-- Bytes that make up whole slots are the bytes of the table that they spell. -/
theorem toBytes_ofBytes {count : Nat} {bytes : List UInt8}
    (whole : bytes.length = count * slotSize) :
    (ofBytes bytes).capacity = count ∧ (ofBytes bytes).toBytes = bytes := by
  rw [ofBytes, whole, Nat.mul_div_cancel _ (by decide)]
  exact flatMap_slotsOfBytes whole

variable {n : Nat} {store : Store} {file : File} {data : List Nat}

/-- A file that starts with the bytes of a table, and has room for its slots only, loads as this
table. -/
theorem runs_load {dir : Directory} (h : file.Addresses n data)
    (capacity : file.length / slotSize = dir.capacity) (size : file.length < Size.limit)
    (holds : (store.bytes data).take (dir.capacity * slotSize) = dir.toBytes) :
    Runs n store (Directory.load file) (.ok dir) [] := by
  have room : dir.capacity * slotSize ≤ file.length := by
    rw [← capacity]
    exact Nat.div_mul_le_self ..
  have read := (h.scans_readAt store 0 (dir.capacity * slotSize)).runs
  rw [List.drop_zero, List.take_take, Nat.min_eq_left room, holds] at read
  rw [Directory.load, capacity, fileSize, Size.mul_of_lt (by omega)]
  refine .andThen (.lift _) (.andThen read ?_)
  rw [ofBytes_toBytes]
  exact .done _

/-- Storing a table writes its bytes to the front of the file and touches data sectors only. A table
that fills whole sectors is stored without reading any. -/
theorem settles_store {dir : Directory} {K : Nat → Prop} (h : file.Addresses n data)
    (room : dir.capacity * slotSize ≤ file.length)
    (whole : dir.capacity * slotSize % sectorSize = 0) (store : Store) :
    ∃ ws : Writes, Settles n store K (dir.store file) (.ok ()) ws ∧ (∀ w ∈ ws, w.1 ∈ data) ∧
      ((store.after ws).bytes data).take (dir.capacity * slotSize) = dir.toBytes := by
  have clip : file.clip 0 dir.toBytes.length = dir.toBytes.length := by
    rw [File.clip, length_toBytes]
    split <;> omega
  obtain ⟨ws, runs, targets, after⟩ := h.settles_writeAt store 0 dir.toBytes (.inl ⟨rfl, by
    rw [clip, length_toBytes]
    exact whole⟩)
  have fits := h.length_le
  refine ⟨ws, .finish runs (.done _), targets, ?_⟩
  rw [after, clip, List.take_length,
    take_overlay (by rw [length_toBytes]; omega) (by rw [Store.length_bytes]; omega)]
  apply overlay_zero
  rw [List.length_take, Store.length_bytes, length_toBytes]
  omega

end Directory

end SectorFS
