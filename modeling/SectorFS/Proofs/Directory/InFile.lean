import SectorFS.Proofs.Directory.Stored
import SectorFS.Proofs.File.Cursor

/-!
# A directory in its file

A file has as many slots as fit into its length, wherever these lie over the borders of its sectors.
`Directory.round_trips`: any table of so many slots that is stored there is loaded again, and any
bytes that are loaded as a table are stored as they were. What lies behind the last slot is not
touched.
-/

namespace SectorFS.Directory

variable {n : Nat} {store : Store} {disk : Disk} {file : File} {data : List Nat}

/-- Storing a table lays its bytes over the front of the file. -/
theorem runs_store (h : file.Addresses n data) {dir : Directory}
    (room : dir.capacity * slotSize ≤ file.length) (store : Store) :
    ∃ ws : Writes, Runs n store (dir.store file) (.ok ()) ws ∧ (∀ w ∈ ws, w.1 ∈ data) ∧
      (store.after ws).bytes data = overlay (store.bytes data) 0 dir.toBytes := by
  have whole : file.clip 0 dir.toBytes.length = dir.toBytes.length := by
    rw [File.clip_eq_min, length_toBytes]
    omega
  obtain ⟨t, does, lays⟩ := h.does_writeAt store 0 dir.toBytes
  have after := lays.whole
  rw [whole, List.take_length] at after
  refine ⟨t.writes, ?_, ?_, after⟩
  · exact .finish (.of_does does) (.done _)
  · intro w hw
    exact File.mem_of_mem_touched (lays.mem_of_mem_writes hw)

theorem ends_store (h : file.Addresses n data) (sound : disk.Sound n) {dir : Directory}
    (room : dir.capacity * slotSize ≤ file.length) :
    ∃ written : Disk, dir.store file disk = .ok () written ∧ written.Sound n ∧
      disk.image.Laid data 0 dir.toBytes written.image := by
  obtain ⟨ws, runs, targets, after⟩ := runs_store h room disk.store
  obtain ⟨written, ends, wrote⟩ := runs.ends sound
  exact ⟨written, ends, wrote.sound sound, wrote.laid sound.covers targets after⟩

/-- The bytes of all slots of a file, whatever they are. -/
def bytesIn (store : Store) (data : List Nat) (file : File) : List UInt8 :=
  (store.bytes data).take (file.length / slotSize * slotSize)

theorem length_bytesIn (h : file.Addresses n data) (store : Store) :
    (bytesIn store data file).length = file.length / slotSize * slotSize := by
  have slots : file.length / slotSize * slotSize ≤ file.length := Nat.div_mul_le_self ..
  have fits := h.length_le
  rw [bytesIn, List.length_take, Store.length_bytes]
  omega

/-- Loading gives the table that the bytes spell. -/
theorem ends_load (h : file.Addresses n data) (sound : disk.Sound n) :
    ∃ seen : Disk, load file disk = .ok (ofBytes (bytesIn disk.store data file)) seen ∧
      disk.Wrote n [] seen := by
  obtain ⟨capacity, bytes⟩ := toBytes_ofBytes (length_bytesIn h disk.store)
  refine (runs_load h capacity.symm (h.length_lt sound.covers) ?_).ends sound
  rw [capacity, bytes]
  rfl

/-- A table that was stored is loaded again. -/
theorem ends_load_of_laid (h : file.Addresses n data) {written : Disk} (sound : written.Sound n)
    {dir : Directory} (capacity : dir.capacity = file.length / slotSize) {image : Image}
    (laid : image.Laid data 0 dir.toBytes written.image) :
    ∃ seen : Disk, load file written = .ok dir seen ∧ written.Untouched seen := by
  obtain ⟨seen, ends, wrote⟩ := ends_load h sound
  have slots : bytesIn written.store data file = dir.toBytes := by
    have front : written.store.bytes data = _ := laid.bytes_eq
    rw [bytesIn, front, ← capacity, ← length_toBytes]
    simp [overlay]
  rw [slots, ofBytes_toBytes] at ends
  exact ⟨seen, ends, wrote.untouched⟩

/-- The bytes of the slots, laid over themselves. -/
theorem laid_bytesIn (image : Image) (data : List Nat) (file : File) :
    image.Laid data 0 (bytesIn image.padded data file) image where
  size_eq := rfl
  tail_eq := rfl
  bytes_eq := (overlay_initial (List.take_prefix ..)).symm
  elsewhere _ _ := rfl

/-- A table of as many slots as the file has room for is stored, with nothing else changed, and
loaded again. Whatever the file holds loads as a table, and storing this one changes nothing. -/
theorem round_trips (h : file.Addresses n data) (sound : disk.Sound n) :
    (∀ dir : Directory, dir.capacity = file.length / slotSize →
      ∃ written seen : Disk, dir.store file disk = .ok () written ∧
        load file written = .ok dir seen ∧ written.Untouched seen ∧
        disk.image.Laid data 0 dir.toBytes written.image ∧
        (written.store.bytes data).drop (dir.capacity * slotSize) =
          (disk.store.bytes data).drop (dir.capacity * slotSize)) ∧
    ∃ (dir : Directory) (seen written : Disk), load file disk = .ok dir seen ∧
      dir.capacity = file.length / slotSize ∧ disk.Untouched seen ∧
      dir.store file seen = .ok () written ∧ written.image = disk.image := by
  have room {dir : Directory} (capacity : dir.capacity = file.length / slotSize) :
      dir.capacity * slotSize ≤ file.length := by
    rw [capacity]
    exact Nat.div_mul_le_self ..
  constructor
  · intro dir capacity
    obtain ⟨written, stores, sound', laid⟩ := ends_store h sound (room capacity)
    obtain ⟨seen, loads, untouched⟩ := ends_load_of_laid h sound' capacity laid
    refine ⟨written, seen, stores, loads, untouched, laid, ?_⟩
    have after : written.store.bytes data = _ := laid.bytes_eq
    rw [after, ← length_toBytes]
    exact drop_overlay_zero ..
  · obtain ⟨seen, loads, wrote⟩ := ends_load h sound
    obtain ⟨capacity, bytes⟩ := toBytes_ofBytes (length_bytesIn h disk.store)
    obtain ⟨written, stores, -, laid⟩ := ends_store h (wrote.sound sound) (room capacity)
    refine ⟨_, seen, written, loads, capacity, wrote.untouched, stores, ?_⟩
    rw [bytes, wrote.untouched.1] at laid
    exact laid.unique (laid_bytesIn disk.image data file)

/-- Three sectors with slots over their borders, and ten bytes left behind the last one. -/
def ragged : File :=
  { File.threeSectors with header := { File.threeSectors.header with length := 310 } }

theorem addresses_ragged : ragged.Addresses 5 [1, 2, 3] where
  sectorAt := File.addresses_threeSectors.sectorAt
  length_le := by decide
  nodup := by decide
  lt := by decide

/-- A table whose first slot means nothing: odd flags, no sector, and a name that is no text. -/
def oddTable : Directory :=
  ⟨⟨7, 9, .replicate 2 5, 0xfffffff0, .replicate nameLimit 0xff⟩ :: List.replicate 14 .unused⟩

theorem round_trips_ragged :
    (∃ written seen : Disk, oddTable.store ragged (.blank 5) = .ok () written ∧
      load ragged written = .ok oddTable seen ∧
      (written.store.bytes [1, 2, 3]).drop 300 = List.replicate 84 0) ∧
    ∃ (dir : Directory) (seen written : Disk), load ragged (.blank 5) = .ok dir seen ∧
      dir.capacity = 15 ∧ dir.store ragged seen = .ok () written ∧
      written.image = (Disk.blank 5).image := by
  obtain ⟨stored, dir, seen, written, loads, capacity, -, stores, same⟩ :=
    round_trips addresses_ragged (Disk.sound_blank (n := 5) (by decide))
  refine ⟨?_, dir, seen, written, loads, capacity, stores, same⟩
  obtain ⟨written, seen, stores, loads, -, -, behind⟩ := stored oddTable rfl
  refine ⟨written, seen, stores, loads, ?_⟩
  have zeros : (Disk.blank 5).store.bytes [1, 2, 3] = List.replicate 384 0 := by
    simp [Store.bytes, Sector.zero, sectorSize]
  rw [zeros, List.drop_replicate] at behind
  exact behind

end SectorFS.Directory
