import SectorFS.Proofs.File.Bytes

/-!
# The medium as a string of bytes

An image keeps whole sectors apart from what lies behind them. All of it is one string of bytes
(`Image.toBytes_ofBytes`), and every operation on an image is one on that string: a write lays its
data over the bytes, with zeros up to them where there were none (`Image.toBytes_write`).
-/

namespace SectorFS

/-- `content` with zeros behind it, as many as it takes to have `size` bytes. -/
def zeroFilled (content : List UInt8) (size : Nat) : List UInt8 :=
  content ++ List.replicate (size - content.length) 0

/-- `content` with `data` over its bytes from `position` on. It grows to hold them. -/
def laidOver (content : List UInt8) (position : Nat) (data : List UInt8) : List UInt8 :=
  overlay (zeroFilled content (position + data.length)) position data

/-- The bytes of a sector, where `content` has them. -/
def sectorBytes (content : List UInt8) (s : Nat) : List UInt8 :=
  (content.drop (sectorSize * s)).take sectorSize

theorem length_zeroFilled (content : List UInt8) (size : Nat) :
    (zeroFilled content size).length = max content.length size := by
  simp only [zeroFilled, List.length_append, List.length_replicate]
  omega

theorem zeroFilled_of_le {content : List UInt8} {size : Nat} (h : size ≤ content.length) :
    zeroFilled content size = content := by
  simp [zeroFilled, Nat.sub_eq_zero_of_le h]

/-- A sector has all its bytes when the content reaches to its end. -/
theorem length_sectorBytes_lt_iff (content : List UInt8) (s : Nat) :
    (sectorBytes content s).length < sectorSize ↔ content.length < sectorSize * (s + 1) := by
  simp only [sectorBytes, List.length_take, List.length_drop, sectorSize]
  omega

/-! ## Rows of sectors -/

theorem length_flatMap_bytes (sectors : List Sector) :
    (sectors.flatMap Sector.bytes).length = sectorSize * sectors.length := by
  induction sectors with
  | nil => rfl
  | cons data sectors ih =>
    simp only [List.flatMap_cons, List.length_append, data.length_bytes, ih, List.length_cons,
      Nat.mul_succ]
    omega

theorem flatMap_bytes_split (sectors : List Sector) (count : Nat) (tail : List UInt8) :
    sectors.flatMap Sector.bytes ++ tail = (sectors.take count).flatMap Sector.bytes ++
      ((sectors.drop count).flatMap Sector.bytes ++ tail) := by
  rw [← List.append_assoc, ← List.flatMap_append, List.take_append_drop]

section Split

variable {sectors : List Sector} {count : Nat} (h : count ≤ sectors.length) (tail : List UInt8)
include h

theorem length_flatMap_take :
    ((sectors.take count).flatMap Sector.bytes).length = sectorSize * count := by
  rw [length_flatMap_bytes, List.length_take, Nat.min_eq_left h]

theorem take_flatMap_bytes : (sectors.flatMap Sector.bytes ++ tail).take (sectorSize * count) =
    (sectors.take count).flatMap Sector.bytes := by
  rw [flatMap_bytes_split sectors count]
  exact List.take_left' (length_flatMap_take h)

theorem drop_flatMap_bytes : (sectors.flatMap Sector.bytes ++ tail).drop (sectorSize * count) =
    (sectors.drop count).flatMap Sector.bytes ++ tail := by
  rw [flatMap_bytes_split sectors count]
  exact List.drop_left' (length_flatMap_take h)

end Split

theorem flatMap_replicate_zero (count : Nat) :
    (List.replicate count Sector.zero).flatMap Sector.bytes =
      List.replicate (sectorSize * count) 0 := by
  induction count with
  | zero => rfl
  | succ count ih =>
    rw [List.replicate_succ, List.flatMap_cons, ih, Sector.zero, Nat.mul_succ, Nat.add_comm]
    simp

namespace Image

variable {image : Image} {s : Nat}

/-! ## Bytes -/

theorem length_toBytes (image : Image) : image.toBytes.length = image.size := by
  rw [toBytes, List.length_append, length_flatMap_bytes, size, Array.length_toList]

theorem flatMap_sectorsOf {count : Nat} {bytes : List UInt8}
    (h : sectorSize * count ≤ bytes.length) :
    (sectorsOf count bytes).flatMap Sector.bytes = bytes.take (sectorSize * count) := by
  induction count generalizing bytes with
  | zero => rfl
  | succ count ih =>
    rw [Nat.mul_succ] at h
    have rest : sectorSize * count ≤ (bytes.drop sectorSize).length := by
      rw [List.length_drop]
      omega
    have whole : (bytes.take sectorSize).length = sectorSize := by
      rw [List.length_take]
      omega
    rw [sectorsOf, List.flatMap_cons, ih rest, Sector.bytes_ofBytes whole, Nat.mul_succ,
      Nat.add_comm, List.take_add]

/-- Every string of bytes is that of an image. -/
theorem toBytes_ofBytes (bytes : List UInt8) : (ofBytes bytes).toBytes = bytes := by
  have le : sectorSize * (bytes.length / sectorSize) ≤ bytes.length := Nat.mul_div_le ..
  simp only [toBytes, ofBytes, flatMap_sectorsOf le, List.take_append_drop]

/-- An image has the sectors that lie in its bytes as a whole. -/
theorem lt_size_iff (image : Image) :
    s < image.sectors.size ↔ sectorSize * (s + 1) ≤ image.toBytes.length := by
  have := image.length_tail
  simp only [length_toBytes, size, sectorSize] at *
  omega

theorem sector?_eq_none (h : image.toBytes.length < sectorSize * (s + 1)) :
    image.sector? s = none := by
  rw [sector?, Array.getElem?_eq_none_iff]
  by_contra inside
  have := image.lt_size_iff.mp (Nat.not_le.mp inside)
  omega

/-- A sector of an image has the bytes in its place. -/
theorem bytes_padded_of_le (h : sectorSize * (s + 1) ≤ image.toBytes.length) :
    (image.padded s).bytes = sectorBytes image.toBytes s := by
  have inside := image.lt_size_iff.mpr h
  have found := sector?_of_lt inside
  rw [sector?, ← Array.getElem?_toList] at found
  obtain ⟨inside, found⟩ := List.getElem?_eq_some_iff.mp found
  rw [sectorBytes, toBytes, drop_flatMap_bytes (Nat.le_of_lt inside),
    List.drop_eq_getElem_cons inside, List.flatMap_cons, List.append_assoc,
    List.take_left' (Sector.length_bytes _), found]

/-! ## Growing -/

theorem size_extend (image : Image) (count : Nat) :
    (image.extend count).sectors.size = max image.sectors.size count := by
  unfold extend
  split
  · omega
  · simp only [Array.size_append, Array.size_push, Array.size_replicate]
    omega

/-- Growing fills up with zeros. -/
theorem toBytes_extend (image : Image) (count : Nat) :
    (image.extend count).toBytes = zeroFilled image.toBytes (sectorSize * count) := by
  have tail := image.length_tail
  unfold extend
  split
  · rename_i le
    rw [zeroFilled_of_le]
    have := Nat.mul_le_mul_left sectorSize le
    rw [length_toBytes, size]
    omega
  · rename_i gt
    have zeros : sectorSize - image.tail.length + sectorSize * (count - image.sectors.size - 1) =
        sectorSize * count - image.toBytes.length := by
      simp only [length_toBytes, size, sectorSize] at *
      omega
    have last : (Sector.ofBytes image.tail).bytes =
        image.tail ++ List.replicate (sectorSize - image.tail.length) 0 := by
      simp [Sector.ofBytes, List.take_of_length_le (Nat.le_of_lt tail)]
    rw [zeroFilled, ← zeros, ← List.replicate_append_replicate]
    simp [toBytes, flatMap_replicate_zero, last]

/-- Growing shows no sector another way. -/
theorem padded_extend (image : Image) (count : Nat) :
    (image.extend count).padded = image.padded := by
  unfold extend
  split
  · rfl
  · rename_i gt
    funext s
    have empty : Sector.ofBytes [] = .zero := by simp [Sector.ofBytes, Sector.zero]
    simp only [padded, sector?, Array.getElem?_append, Array.size_push, Array.getElem?_push,
      Array.getElem?_replicate, Array.size_append, Array.size_replicate, empty, ite_self]
    rcases Nat.lt_trichotomy s image.sectors.size with lt | rfl | gt'
    · have before : s < image.sectors.size + 1 := by omega
      simp [lt, Nat.ne_of_lt lt, before]
    · simp
    · have behind : ¬ s < image.sectors.size + 1 := by omega
      have none : image.sectors[s]? = none := Array.getElem?_eq_none (Nat.le_of_lt gt')
      by_cases inside : s - (image.sectors.size + 1) < count - image.sectors.size - 1
      · simp [behind, inside, none, Nat.ne_of_gt gt']
      · simp [behind, inside, none, Nat.ne_of_gt gt']

/-- A sector has the bytes in its place, with zeros for those that are missing. -/
theorem bytes_padded (image : Image) (s : Nat) : (image.padded s).bytes =
    sectorBytes (zeroFilled image.toBytes (sectorSize * (s + 1))) s := by
  have long : sectorSize * (s + 1) ≤ (image.extend (s + 1)).toBytes.length := by
    rw [toBytes_extend, length_zeroFilled]
    exact Nat.le_max_right ..
  rw [← padded_extend image (s + 1), bytes_padded_of_le long, toBytes_extend]

/-! ## Writing and clearing -/

theorem write_extend (image : Image) (s : Nat) (data : Sector) :
    (image.extend (s + 1)).write s data = image.write s data := by
  have grown : s + 1 ≤ (image.extend (s + 1)).sectors.size := by
    rw [size_extend]
    exact Nat.le_max_right ..
  have again : (image.extend (s + 1)).extend (s + 1) = image.extend (s + 1) := if_pos grown
  rw [write, again, write]

theorem lt_size_extend (image : Image) (s : Nat) : s < (image.extend (s + 1)).sectors.size := by
  rw [size_extend]
  omega

/-- Every other sector shows what it showed. -/
theorem padded_write (image : Image) (s : Nat) (data : Sector) :
    (image.write s data).padded = Function.update image.padded s data := by
  rw [← write_extend, padded_write_of_lt (image.lt_size_extend s), padded_extend]

theorem toBytes_write_of_lt (h : s < image.sectors.size) (data : Sector) :
    (image.write s data).toBytes = overlay image.toBytes (sectorSize * s) data.bytes := by
  have inside : s < image.sectors.toList.length := h
  have behind : sectorSize * s + data.bytes.length = sectorSize * (s + 1) := by
    rw [data.length_bytes, Nat.mul_succ]
  rw [write_of_lt h, overlay, behind, toBytes, toBytes, take_flatMap_bytes (Nat.le_of_lt inside),
    drop_flatMap_bytes inside, Array.toList_setIfInBounds, List.set_eq_take_append_cons_drop,
    if_pos inside]
  simp

/-- A write lays its data over the bytes in the place of its sector. -/
theorem toBytes_write (image : Image) (s : Nat) (data : Sector) :
    (image.write s data).toBytes = laidOver image.toBytes (sectorSize * s) data.bytes := by
  rw [← write_extend, toBytes_write_of_lt (image.lt_size_extend s), toBytes_extend, laidOver,
    data.length_bytes, Nat.mul_succ]

theorem mapIdx_eq_replicate_append {list : List Sector} {count : Nat} (h : count ≤ list.length) :
    list.mapIdx (fun i data => if i < count then Sector.zero else data) =
      List.replicate count .zero ++ list.drop count := by
  apply List.ext_getElem?
  intro i
  by_cases hi : i < count
  · have inside : i < list.length := Nat.lt_of_lt_of_le hi h
    rw [List.getElem?_append_left (by simpa using hi)]
    simp [hi, inside]
  · rw [List.getElem?_append_right (by simpa using Nat.not_lt.mp hi)]
    simp [hi, Nat.add_sub_cancel' (Nat.not_lt.mp hi)]

/-- Clearing puts zeros for the bytes of the sectors and keeps those behind. -/
theorem toBytes_clear (image : Image) (count : Nat) : (image.clear count).toBytes =
    List.replicate (sectorSize * count) 0 ++ image.toBytes.drop (sectorSize * count) := by
  have enough : count ≤ (image.extend count).sectors.toList.length := by
    rw [Array.length_toList, size_extend]
    exact Nat.le_max_right ..
  have behind : image.toBytes.drop (sectorSize * count) =
      (image.extend count).toBytes.drop (sectorSize * count) := by
    rw [toBytes_extend, zeroFilled, List.drop_append]
    simp
  have kept : (image.extend count).toBytes.drop (sectorSize * count) =
      ((image.extend count).sectors.toList.drop count).flatMap Sector.bytes ++
        (image.extend count).tail := drop_flatMap_bytes enough _
  rw [behind, kept, toBytes, clear]
  dsimp only
  rw [Array.toList_mapIdx, mapIdx_eq_replicate_append enough, List.flatMap_append,
    flatMap_replicate_zero, List.append_assoc]

end Image

end SectorFS
