import Mathlib.Data.List.Induction
import SectorFS.File.Contents

/-!
# Bytes as text

`Text.IsHex` says which digits are the numeral of a number, `Text.Shows` how a byte shows and
`Text.Renders` how a row of bytes does. Each of them allows one text (`isHex_iff`, `shows_iff`,
`renders_iff`). There is no newline in it, so that lines can be told apart (`splitOn_lines`).
-/

namespace SectorFS.Text

/-! ## Numerals -/

/-- The digits of lowercase hexadecimal, by their values. -/
def hexDigits : List Char := "0123456789abcdef".toList

/-- The number that hexadecimal digits spell, highest first. -/
def hexValue (digits : List Char) : Nat :=
  digits.foldl (fun value c => 16 * value + hexDigits.idxOf c) 0

/-- `digits` is the lowercase hexadecimal numeral of `n`, without padding. -/
structure IsHex (n : Nat) (digits : List Char) : Prop where
  lowercase : ∀ c ∈ digits, c ∈ hexDigits
  value : hexValue digits = n
  unpadded : digits = ['0'] ∨ ∃ c rest, digits = c :: rest ∧ c ≠ '0'

theorem IsHex.ne_nil {n : Nat} {digits : List Char} (h : IsHex n digits) : digits ≠ [] := by
  rintro rfl
  simpa using h.unpadded

theorem hexDigits_eq : hexDigits = (List.range 16).map Nat.digitChar := by
  decide

theorem idxOf_digitChar : ∀ k < 16,
    Nat.digitChar k ∈ hexDigits ∧ hexDigits.idxOf (Nat.digitChar k) = k := by
  decide

theorem digitChar_idxOf {c : Char} (mem : c ∈ hexDigits) :
    hexDigits.idxOf c < 16 ∧ Nat.digitChar (hexDigits.idxOf c) = c := by
  rw [hexDigits_eq] at mem
  obtain ⟨k, small, rfl⟩ := List.mem_map.mp mem
  rw [List.mem_range] at small
  rw [(idxOf_digitChar k small).2]
  exact ⟨small, rfl⟩

theorem hexValue_concat (digits : List Char) (c : Char) :
    hexValue (digits ++ [c]) = 16 * hexValue digits + hexDigits.idxOf c := by
  simp [hexValue]

/-- Only the numeral of zero starts with a zero. -/
theorem hexValue_pos {c : Char} {rest : List Char} (mem : c ∈ hexDigits) (nonzero : c ≠ '0') :
    0 < hexValue (c :: rest) := by
  induction rest using List.reverseRecOn with
  | nil =>
    have same := (digitChar_idxOf mem).2
    have zero : hexDigits.idxOf c ≠ 0 := by
      intro first
      rw [first] at same
      exact nonzero same.symm
    simpa [hexValue] using Nat.pos_of_ne_zero zero
  | append_singleton rest d ih =>
    rw [← List.cons_append, hexValue_concat]
    omega

theorem isHex_singleton {n : Nat} {c : Char} :
    IsHex n [c] ↔ n < 16 ∧ c = Nat.digitChar n := by
  constructor
  · rintro ⟨lowercase, rfl, -⟩
    obtain ⟨small, same⟩ := digitChar_idxOf (lowercase c List.mem_cons_self)
    simp [hexValue, small, same]
  · rintro ⟨small, rfl⟩
    obtain ⟨mem, value⟩ := idxOf_digitChar n small
    refine ⟨by simpa using mem, by simpa [hexValue] using value, ?_⟩
    by_cases zero : Nat.digitChar n = '0'
    · exact .inl (by rw [zero])
    · exact .inr ⟨_, [], rfl, zero⟩

/-- One digit more, behind a numeral that is not that of zero. -/
theorem isHex_concat {n : Nat} {digits : List Char} {c : Char} (more : digits ≠ []) :
    IsHex n (digits ++ [c]) ↔
      16 ≤ n ∧ IsHex (n / 16) digits ∧ c = Nat.digitChar (n % 16) := by
  constructor
  · rintro ⟨lowercase, rfl, unpadded⟩
    have front : ∃ d rest, digits = d :: rest ∧ d ≠ '0' := by
      obtain ⟨d, rest, rfl⟩ := List.exists_cons_of_ne_nil more
      simpa using unpadded
    obtain ⟨d, rest, rfl, nonzero⟩ := front
    have positive : 0 < hexValue (d :: rest) := hexValue_pos (lowercase d (by simp)) nonzero
    obtain ⟨small, same⟩ := digitChar_idxOf (lowercase c (by simp))
    rw [hexValue_concat]
    have quotient :
        (16 * hexValue (d :: rest) + hexDigits.idxOf c) / 16 = hexValue (d :: rest) := by
      omega
    have remainder : (16 * hexValue (d :: rest) + hexDigits.idxOf c) % 16 = hexDigits.idxOf c := by
      omega
    rw [quotient, remainder]
    refine ⟨by omega, ⟨fun e mem => lowercase e (List.mem_append_left _ mem), rfl, ?_⟩, same.symm⟩
    exact .inr ⟨d, rest, rfl, nonzero⟩
  · rintro ⟨large, ⟨lowercase, value, unpadded⟩, rfl⟩
    obtain ⟨mem, last⟩ := idxOf_digitChar (n % 16) (Nat.mod_lt n (by decide))
    refine ⟨?_, ?_, ?_⟩
    · intro c hc
      rcases List.mem_append.mp hc with hc | hc
      · exact lowercase c hc
      · rwa [List.mem_singleton.mp hc]
    · rw [hexValue_concat, value, last]
      omega
    · rcases unpadded with rfl | ⟨c, rest, rfl, nonzero⟩
      · have zero : hexValue ['0'] = 0 := by decide
        omega
      · exact .inr ⟨c, rest ++ [Nat.digitChar (n % 16)], rfl, nonzero⟩

theorem isHex_toDigits (n : Nat) : IsHex n (Nat.toDigits 16 n) := by
  induction n using Nat.strongRecOn with
  | ind n ih =>
    by_cases small : n < 16
    · rw [Nat.toDigits_of_lt_base small]
      exact isHex_singleton.mpr ⟨small, rfl⟩
    · have front := ih (n / 16) (by omega)
      rw [Nat.toDigits_of_base_le (by decide) (by omega)]
      exact (isHex_concat front.ne_nil).mpr ⟨by omega, front, rfl⟩

/-- A number has one numeral. -/
theorem isHex_iff {n : Nat} {digits : List Char} : IsHex n digits ↔ digits = Nat.toDigits 16 n := by
  refine ⟨fun hex => ?_, fun same => same ▸ isHex_toDigits n⟩
  induction digits using List.reverseRecOn generalizing n with
  | nil => exact absurd rfl hex.ne_nil
  | append_singleton front c ih =>
    by_cases lone : front = []
    · subst lone
      obtain ⟨small, rfl⟩ := isHex_singleton.mp hex
      exact (Nat.toDigits_of_lt_base small).symm
    · obtain ⟨large, front, rfl⟩ := (isHex_concat lone).mp hex
      rw [Nat.toDigits_of_base_le (by decide) large, ih front]

/-! ## Bytes -/

/-- Printable ASCII shows as itself, any other byte as a backslash and its numeral. -/
inductive Shows : UInt8 → List Char → Prop where
  | printable {b : UInt8} {c : Char} (low : 0x20 ≤ b) (high : b ≤ 0x7e)
      (same : c.toNat = b.toNat) : Shows b [c]
  | escaped {b : UInt8} {digits : List Char} (other : ¬ (0x20 ≤ b ∧ b ≤ 0x7e))
      (numeral : IsHex b.toNat digits) : Shows b ('\\' :: digits)

/-- The bytes show one behind the other. -/
inductive Renders : List UInt8 → List Char → Prop where
  | nil : Renders [] []
  | cons {b : UInt8} {text : List Char} {bytes : List UInt8} {line : List Char}
      (first : Shows b text) (rest : Renders bytes line) : Renders (b :: bytes) (text ++ line)

/-- Every byte is the number of a character. -/
theorem toNat_ofNat_byte (b : UInt8) : (Char.ofNat b.toNat).toNat = b.toNat := by
  have valid : b.toNat.isValidChar := by
    have := b.toNat_lt
    exact .inl (by omega)
  rw [Char.ofNat, dif_pos valid]
  rfl

theorem shows_iff {b : UInt8} {text : List Char} : Shows b text ↔ text = Header.renderByte b := by
  by_cases printable : 0x20 ≤ b ∧ b ≤ 0x7e
  · have rendered : Header.renderByte b = [Char.ofNat b.toNat] := by
      simp [Header.renderByte, printable]
    rw [rendered]
    constructor
    · rintro (⟨-, -, same⟩ | ⟨other, -⟩)
      · rw [← same, Char.ofNat_toNat]
      · exact absurd printable other
    · rintro rfl
      exact .printable printable.1 printable.2 (toNat_ofNat_byte b)
  · have rendered : Header.renderByte b = '\\' :: Nat.toDigits 16 b.toNat := by
      simp [Header.renderByte, printable]
    rw [rendered]
    constructor
    · rintro (⟨low, high, -⟩ | ⟨-, numeral⟩)
      · exact absurd ⟨low, high⟩ printable
      · rw [isHex_iff.mp numeral]
    · rintro rfl
      exact .escaped printable (isHex_toDigits _)

theorem renders_iff {bytes : List UInt8} {line : List Char} :
    Renders bytes line ↔ line = bytes.flatMap Header.renderByte := by
  constructor
  · intro h
    induction h with
    | nil => rfl
    | cons first _ ih => rw [List.flatMap_cons, ← shows_iff.mp first, ih]
  · rintro rfl
    induction bytes with
    | nil => exact .nil
    | cons b bytes ih => exact .cons (shows_iff.mpr rfl) ih

/-! ## Lines -/

theorem Shows.newline_notMem {b : UInt8} {text : List Char} (h : Shows b text) : '\n' ∉ text := by
  cases h with
  | printable low _ same =>
    intro mem
    obtain rfl := List.mem_singleton.mp mem
    rw [UInt8.le_iff_toNat_le, ← same] at low
    exact absurd low (by decide)
  | escaped _ numeral =>
    intro mem
    rcases List.mem_cons.mp mem with backslash | mem
    · exact absurd backslash (by decide)
    · exact absurd (numeral.lowercase _ mem) (by decide)

theorem Renders.newline_notMem {bytes : List UInt8} {line : List Char} (h : Renders bytes line) :
    '\n' ∉ line := by
  induction h with
  | nil => exact List.not_mem_nil
  | cons first _ ih => simp [first.newline_notMem, ih]

/-- Lines that end in newlines are told apart by these. -/
theorem splitOn_lines {lines : List (List Char)} (h : ∀ line ∈ lines, '\n' ∉ line) :
    (lines.flatMap (· ++ ['\n'])).splitOn '\n' = lines ++ [[]] := by
  induction lines with
  | nil => rfl
  | cons line lines ih =>
    obtain ⟨first, rest⟩ := List.forall_mem_cons.mp h
    rw [List.flatMap_cons, List.append_assoc, List.singleton_append,
      List.splitOn_append_cons_self_of_not_mem first, ih rest, List.cons_append]

end SectorFS.Text
