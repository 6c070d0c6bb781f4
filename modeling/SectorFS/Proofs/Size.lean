import SectorFS.Size

/-! # Sizes within the range -/

namespace SectorFS.Size

/-- How many units of `d` cover `n`, as a number. -/
def units (n d : Nat) : Nat := (n + d - 1) / d

theorem add_of_lt {a b : Nat} (h : a + b < limit) : add a b = .ok (a + b) := if_pos h

theorem mul_of_lt {a b : Nat} (h : a * b < limit) : mul a b = .ok (a * b) := if_pos h

theorem ceilDiv_of_lt {n d : Nat} (h : n + d < limit) : ceilDiv n d = .ok (units n d) := by
  rw [ceilDiv, add_of_lt h]
  rfl

/-- Rounding up fails only when the sum is no size. -/
theorem ceilDiv_of_le {n d : Nat} (h : limit ≤ n + d) :
    ceilDiv n d = .error (.fault .addOverflow) := by
  rw [ceilDiv, add, if_neg (by omega)]
  rfl

theorem units_zero {d : Nat} (hd : 0 < d) : units 0 d = 0 := by
  rw [units, Nat.zero_add]
  exact Nat.div_eq_of_lt (Nat.sub_lt hd Nat.one_pos)

/-- One unit, and those that cover what is left. -/
theorem units_of_pos {n d : Nat} (hd : 0 < d) (hn : n ≠ 0) :
    units n d = units (n - d) d + 1 := by
  rw [units, units, ← Nat.add_div_right _ hd]
  by_cases h : d ≤ n
  · congr 1
    omega
  · have last : n - d + d - 1 + d = n + d - 1 + (d - n) := by omega
    rw [last, Nat.div_eq_of_lt_le (k := 1), Nat.div_eq_of_lt_le (k := 1)] <;> omega

theorem le_units_mul {d : Nat} (hd : 0 < d) (n : Nat) : n ≤ units n d * d := by
  have := Nat.div_add_mod (n + d - 1) d
  have := Nat.mod_lt (n + d - 1) hd
  rw [units, Nat.mul_comm]
  omega

theorem units_mul_lt {d : Nat} (hd : 0 < d) (n : Nat) : units n d * d < n + d := by
  have := Nat.div_mul_le_self (n + d - 1) d
  unfold units
  omega

theorem lt_units_iff {d : Nat} (hd : 0 < d) {n i : Nat} : i < units n d ↔ i * d < n := by
  rw [units, Nat.lt_div_iff_mul_lt hd]
  omega

end SectorFS.Size
