import SectorFS.Proofs.Disk.Store

/-!
# Bytes laid over bytes

`overlay` is what a write does to a file, `Store.bytes` the bytes that a list of sectors holds.
Both are looked at byte by byte, through `getElem?_overlay` and `Store.getElem?_bytes`.
-/

namespace SectorFS

/-- `content` with `data` over its bytes from `position` on. -/
def overlay (content : List UInt8) (position : Nat) (data : List UInt8) : List UInt8 :=
  content.take position ++ data ++ content.drop (position + data.length)

section
variable {content data : List UInt8} {position : Nat}

theorem getElem?_overlay (h : position + data.length ≤ content.length) (i : Nat) :
    (overlay content position data)[i]? =
      if position ≤ i ∧ i < position + data.length then data[i - position]? else content[i]? := by
  have take : (content.take position).length = position := by
    rw [List.length_take]
    omega
  rw [overlay, List.append_assoc]
  by_cases before : i < position
  · rw [if_neg (by omega), List.getElem?_append_left (by omega), List.getElem?_take_of_lt before]
  · rw [List.getElem?_append_right (by omega), take]
    by_cases inside : i < position + data.length
    · rw [if_pos ⟨by omega, inside⟩, List.getElem?_append_left (by omega)]
    · rw [if_neg (by omega), List.getElem?_append_right (by omega), List.getElem?_drop]
      congr 1
      omega

theorem overlay_nil (content : List UInt8) (position : Nat) :
    overlay content position [] = content := by
  simp [overlay]

/-- Data laid in two parts, the second behind the first. -/
theorem overlay_append {more : List UInt8} (h : position ≤ content.length) :
    overlay (overlay content position data) (position + data.length) more =
      overlay content position (data ++ more) := by
  have front : (content.take position ++ data).length = position + data.length := by
    rw [List.length_append, List.length_take, Nat.min_eq_left h]
  unfold overlay
  rw [← front, List.take_left, ← List.drop_drop, List.drop_left, List.drop_drop, front]
  simp only [List.append_assoc, List.length_append, Nat.add_assoc]

/-- The first part of the data, and the next one behind it. -/
theorem overlay_take_add {count more : Nat} (h : count ≤ data.length)
    (hp : position ≤ content.length) :
    overlay (overlay content position (data.take count)) (position + count)
        ((data.drop count).take more) =
      overlay content position (data.take (count + more)) := by
  have first : (data.take count).length = count := by
    rw [List.length_take]
    omega
  have joined := @overlay_append content (data.take count) position ((data.drop count).take more) hp
  rw [first, ← List.take_add] at joined
  exact joined

/-- Data is laid over a part of its own length or less as if that had not been there. -/
theorem overlay_overlay {part : List UInt8} (hp : position ≤ content.length)
    (h : part.length ≤ data.length) :
    overlay (overlay content position part) position data = overlay content position data := by
  have start : (content.take position).length = position := by
    rw [List.length_take, Nat.min_eq_left hp]
  have front : (content.take position ++ part).length = position + part.length := by
    rw [List.length_append, start]
  have split : position + data.length = position + part.length + (data.length - part.length) := by
    omega
  unfold overlay
  congr 1
  · congr 1
    rw [List.append_assoc, List.take_left' start]
  · rw [split, ← List.drop_drop, List.drop_left' front, List.drop_drop]

/-- Data as long as the content replaces it. -/
theorem overlay_zero (h : data.length = content.length) : overlay content 0 data = data := by
  simp [overlay, h]

/-- Data laid over itself. -/
theorem overlay_initial (h : data <+: content) : overlay content 0 data = content := by
  simpa [overlay] using List.prefix_iff_eq_append.mp h

/-- Behind data laid over the front nothing changes. -/
theorem drop_overlay_zero (content data : List UInt8) :
    (overlay content 0 data).drop data.length = content.drop data.length := by
  simp [overlay]

/-- What lies behind the overlaid part can be cut off before or after. -/
theorem take_overlay {size : Nat} (h : position + data.length ≤ size) (hs : size ≤ content.length) :
    (overlay content position data).take size = overlay (content.take size) position data := by
  apply List.ext_getElem?
  intro i
  rw [getElem?_overlay (by rw [List.length_take]; omega), List.getElem?_take, List.getElem?_take,
    getElem?_overlay (by omega)]
  by_cases hi : i < size
  · rw [if_pos hi, if_pos hi]
  · rw [if_neg hi, if_neg hi, if_neg (by omega)]

end

namespace Store

/-- The bytes of the sectors, one sector after the other. -/
def bytes (store : Store) (sectors : List Nat) : List UInt8 :=
  sectors.flatMap fun s => (store s).bytes

variable {store : Store} {sectors : List Nat}

theorem length_bytes (store : Store) (sectors : List Nat) :
    (store.bytes sectors).length = sectors.length * sectorSize := by
  induction sectors with
  | nil => simp [bytes]
  | cons s sectors ih =>
    rw [bytes, List.flatMap_cons, List.length_append, (store s).length_bytes, List.length_cons,
      Nat.succ_mul, Nat.add_comm]
    exact congrArg (· + sectorSize) ih

theorem getElem?_bytes (store : Store) (sectors : List Nat) (i : Nat) :
    (store.bytes sectors)[i]? =
      sectors[i / sectorSize]?.bind fun s => (store s).bytes[i % sectorSize]? := by
  have positive : 0 < sectorSize := by decide
  induction sectors generalizing i with
  | nil => simp [bytes]
  | cons s sectors ih =>
    rw [bytes, List.flatMap_cons]
    by_cases hi : i < sectorSize
    · rw [List.getElem?_append_left (by rw [(store s).length_bytes]; exact hi),
        Nat.div_eq_of_lt hi, Nat.mod_eq_of_lt hi]
      rfl
    · have place : i / sectorSize = (i - sectorSize) / sectorSize + 1 := by
        rw [Nat.div_eq_sub_div positive (by omega)]
      rw [List.getElem?_append_right (by rw [(store s).length_bytes]; omega),
        (store s).length_bytes, place, List.getElem?_cons_succ, Nat.mod_eq_sub_mod (by omega)]
      exact ih (i - sectorSize)

/-- One sector's bytes, found in those of all. -/
theorem bytes_eq_of_getElem? {i s : Nat} (h : sectors[i]? = some s) :
    (store s).bytes = ((store.bytes sectors).drop (i * sectorSize)).take sectorSize := by
  apply List.ext_getElem?
  intro k
  rw [List.getElem?_take, List.getElem?_drop, getElem?_bytes]
  by_cases hk : k < sectorSize
  · rw [if_pos hk, Nat.mul_comm, Nat.mul_add_div (by decide), Nat.div_eq_of_lt hk, Nat.add_zero, h,
      Nat.mul_add_mod, Nat.mod_eq_of_lt hk]
    rfl
  · rw [if_neg hk]
    exact List.getElem?_eq_none (by rw [(store s).length_bytes]; omega)

/-- Replacing a part of one sector replaces that part of all. -/
theorem bytes_update {i s start : Nat} {sector : Sector} {data : List UInt8}
    (nodup : sectors.Nodup) (h : sectors[i]? = some s) (hd : start + data.length ≤ sectorSize)
    (hs : sector.bytes = overlay (store s).bytes start data) :
    Store.bytes (Function.update store s sector) sectors =
      overlay (store.bytes sectors) (i * sectorSize + start) data := by
  have lt : i < sectors.length := (List.getElem?_eq_some_iff.mp h).1
  have inside : i * sectorSize + start + data.length ≤ (store.bytes sectors).length := by
    have : (i + 1) * sectorSize ≤ sectors.length * sectorSize := Nat.mul_le_mul_right _ lt
    rw [length_bytes]
    rw [Nat.succ_mul] at this
    omega
  have part : start + data.length ≤ (store s).bytes.length := by
    rw [(store s).length_bytes]
    exact hd
  apply List.ext_getElem?
  intro k
  rw [getElem?_overlay inside, getElem?_bytes, getElem?_bytes]
  have position := Nat.div_add_mod k sectorSize
  have small := Nat.mod_lt k (show 0 < sectorSize by decide)
  by_cases hk : k / sectorSize = i
  · rw [hk] at position ⊢
    rw [h, Option.bind_some, Option.bind_some, Function.update_self, hs, getElem?_overlay part]
    rw [Nat.mul_comm] at position
    by_cases hin : start ≤ k % sectorSize ∧ k % sectorSize < start + data.length
    · rw [if_pos hin, if_pos (by omega)]
      congr 1
      omega
    · rw [if_neg hin, if_neg (by omega)]
  · have other : ∀ t ∈ sectors[k / sectorSize]?, t ≠ s := by
      rintro t ht rfl
      exact hk ((List.getElem?_inj lt nodup).mp (h.trans ht.symm)).symm
    have outside : ¬ (i * sectorSize + start ≤ k ∧ k < i * sectorSize + start + data.length) := by
      rintro ⟨lo, hi⟩
      exact hk (Nat.div_eq_of_lt_le (by omega) (by rw [Nat.succ_mul]; omega))
    rw [if_neg outside]
    cases ht : sectors[k / sectorSize]? with
    | none => rfl
    | some t => rw [Option.bind_some, Option.bind_some, Function.update_of_ne (other t ht)]

theorem bytes_congr {store' : Store} (h : ∀ s ∈ sectors, store' s = store s) :
    store'.bytes sectors = store.bytes sectors := by
  induction sectors with
  | nil => rfl
  | cons s sectors ih =>
    rw [bytes, List.flatMap_cons, h s List.mem_cons_self]
    exact congrArg ((store s).bytes ++ ·) (ih fun t ht => h t (List.mem_cons_of_mem _ ht))

end Store

/-! ## On a medium -/

/-- `image'` is `image` with `bytes` over those of the sectors `data`, from `position` on. No other
byte differs. -/
structure Image.Laid (image : Image) (data : List Nat) (position : Nat) (bytes : List UInt8)
    (image' : Image) : Prop where
  size_eq : image'.sectors.size = image.sectors.size
  tail_eq : image'.tail = image.tail
  bytes_eq : Store.bytes image'.padded data = overlay (Store.bytes image.padded data) position bytes
  elsewhere : ∀ s, s ∉ data → image'.padded s = image.padded s

namespace Image.Laid

variable {image image' image'' : Image} {data : List Nat} {position : Nat} {bytes : List UInt8}

/-- The bytes decide what the medium is. -/
theorem unique (h : image.Laid data position bytes image')
    (h' : image.Laid data position bytes image'') : image' = image'' := by
  apply eq_of_padded (h.size_eq.trans h'.size_eq.symm) (h.tail_eq.trans h'.tail_eq.symm)
  funext s
  by_cases mem : s ∈ data
  · obtain ⟨i, place⟩ := List.mem_iff_getElem?.mp mem
    have same : (image'.padded s).bytes = (image''.padded s).bytes := by
      rw [Store.bytes_eq_of_getElem? place, Store.bytes_eq_of_getElem? place, h.bytes_eq,
        h'.bytes_eq]
    revert same
    cases image'.padded s
    cases image''.padded s
    rintro rfl
    rfl
  · rw [h.elsewhere s mem, h'.elsewhere s mem]

/-- Laying the data once more, when a part of it lies there already. -/
theorem again {part : List UInt8} (h : image.Laid data position part image')
    (h' : image'.Laid data position bytes image'') (shorter : part.length ≤ bytes.length)
    (inside : position ≤ data.length * sectorSize) : image.Laid data position bytes image'' where
  size_eq := h'.size_eq.trans h.size_eq
  tail_eq := h'.tail_eq.trans h.tail_eq
  bytes_eq := by
    rw [h'.bytes_eq, h.bytes_eq, overlay_overlay _ shorter]
    rwa [Store.length_bytes]
  elsewhere s mem := (h'.elsewhere s mem).trans (h.elsewhere s mem)

end Image.Laid

/-- Writes below the sector count, looked at byte by byte. -/
theorem Disk.Wrote.laid {n position : Nat} {disk disk' : Disk} {ws : Writes} {data : List Nat}
    {bytes : List UInt8} (wrote : disk.Wrote n ws disk') (covers : disk.Covers n)
    (targets : ∀ w ∈ ws, w.1 ∈ data)
    (after : (disk.store.after ws).bytes data = overlay (disk.store.bytes data) position bytes) :
    disk.image.Laid data position bytes disk'.image := by
  have store : disk'.store = disk.store.after ws := wrote.store_eq covers
  constructor
  case size_eq =>
    rw [wrote.image_eq]
    exact (foldl_write covers.covered wrote.in_range).1
  case tail_eq =>
    rw [wrote.image_eq]
    exact tail_foldl_write covers.covered wrote.in_range
  case bytes_eq =>
    rw [← store] at after
    exact after
  case elsewhere =>
    intro s other
    have unwritten : s ∉ ws.map Prod.fst := by
      intro mem
      obtain ⟨w, hw, rfl⟩ := List.mem_map.mp mem
      exact other (targets w hw)
    exact (congrFun store s).trans (Store.after_apply_of_notMem _ unwritten)

end SectorFS
