import SectorFS.Word

/-!
# Words read back as they were written

`Word.decode_flatMap_append` reads words back from their bytes, `Word.flatMap_decode` writes them
back as they were read, and `Word.sector?_ofSector?` reads a sector number back from its word. Only
numbers below `sectorLimit` have a word of their own.
-/

namespace SectorFS.Word

/-- The first number that no word names as a sector. -/
def sectorLimit : Nat := 0x80000000

theorem decode_toBytes_append (w : UInt32) (rest : List UInt8) :
    decode (toBytes w ++ rest) = w :: decode rest := by
  have joined : ofBytes (.ofNat w.toNat) (.ofNat (w.toNat / 0x100)) (.ofNat (w.toNat / 0x10000))
      (.ofNat (w.toNat / 0x1000000)) = w := by
    have := w.toNat_lt
    rw [← UInt32.toNat_inj]
    simp only [ofBytes, UInt8.toNat_ofNat', UInt32.toNat_ofNat']
    omega
  simp only [toBytes, List.cons_append, List.nil_append, decode, joined]

theorem decode_flatMap_append (ws : List UInt32) (rest : List UInt8) :
    decode (ws.flatMap toBytes ++ rest) = ws ++ decode rest := by
  induction ws with
  | nil => rfl
  | cons w ws ih => rw [List.flatMap_cons, List.append_assoc, decode_toBytes_append, ih,
      List.cons_append]

theorem decode_flatMap (ws : List UInt32) : decode (ws.flatMap toBytes) = ws := by
  simpa [decode] using decode_flatMap_append ws []

theorem toBytes_ofBytes (a b c d : UInt8) : toBytes (ofBytes a b c d) = [a, b, c, d] := by
  have := a.toNat_lt
  have := b.toNat_lt
  have := c.toNat_lt
  have := d.toNat_lt
  simp only [toBytes, ofBytes, UInt32.toNat_ofNat', List.cons.injEq, and_true, ← UInt8.toNat_inj,
    UInt8.toNat_ofNat']
  omega

/-- Bytes that do not start with a word are fewer than four. -/
theorem length_lt_of_short {bytes : List UInt8}
    (short : ∀ a b c d rest, bytes = a :: b :: c :: d :: rest → False) : bytes.length < 4 := by
  match bytes with
  | [] | [_] | [_, _] | [_, _, _] => simp
  | a :: b :: c :: d :: rest => exact (short a b c d rest rfl).elim

theorem length_decode (bytes : List UInt8) : (decode bytes).length = bytes.length / 4 := by
  fun_induction decode bytes with
  | case1 a b c d rest ih =>
    simp only [List.length_cons, ih]
    omega
  | case2 bytes short => exact (Nat.div_eq_of_lt (length_lt_of_short short)).symm

/-- Bytes that make up whole words are the bytes of these words. -/
theorem flatMap_decode {bytes : List UInt8} (whole : bytes.length % 4 = 0) :
    (decode bytes).flatMap toBytes = bytes := by
  fun_induction decode bytes with
  | case1 a b c d rest ih =>
    simp only [List.length_cons] at whole
    rw [List.flatMap_cons, toBytes_ofBytes, ih (by omega)]
    rfl
  | case2 bytes short =>
    have := length_lt_of_short short
    exact (List.length_eq_zero_iff.mp (by omega)).symm

@[simp] theorem length_toBytes (w : UInt32) : (toBytes w).length = 4 := rfl

theorem length_flatMap_toBytes (ws : List UInt32) :
    (ws.flatMap toBytes).length = 4 * ws.length := by
  induction ws with
  | nil => rfl
  | cons w ws ih => simp only [List.flatMap_cons, List.length_append, ih, length_toBytes,
      List.length_cons]; omega

/-- The word for the number of a size keeps it, when it is no larger than a word can be. -/
theorem toNat_ofNat_of_lt {k : Nat} (h : k < sectorLimit) : (UInt32.ofNat k).toNat = k := by
  simp only [sectorLimit] at h
  rw [UInt32.toNat_ofNat']
  omega

theorem lt_of_sector? {w : UInt32} {s : Nat} (h : sector? w = some s) : s < sectorLimit := by
  rw [sector?, Option.ite_none_right_eq_some] at h
  exact Option.some.inj h.2 ▸ h.1

theorem sector?_ofSector {s : Nat} (h : s < sectorLimit) :
    sector? (ofSector? (some s)) = some s := by
  simp only [sector?, ofSector?, toNat_ofNat_of_lt h]
  exact if_pos h

theorem sector?_ofSector? {o : Option Nat} (h : ∀ s ∈ o, s < sectorLimit) :
    sector? (ofSector? o) = o := by
  cases o with
  | none => rfl
  | some s => exact sector?_ofSector (h s rfl)

end SectorFS.Word
