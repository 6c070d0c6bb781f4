import SectorFS.Failure

/-!
Sizes and positions are 64-bit quantities. Arithmetic that leaves the range is a fault, never a
wrapped result.
-/

namespace SectorFS.Size

/-- The first number that is no size. -/
def limit : Nat := 0x10000000000000000

def add (a b : Nat) : Except Failure Nat :=
  if a + b < limit then .ok (a + b) else .error (.fault .addOverflow)

def mul (a b : Nat) : Except Failure Nat :=
  if a * b < limit then .ok (a * b) else .error (.fault .multiplyOverflow)

/-- How many units of `d` cover `n`. The sum `n + d` has to be a size itself. -/
def ceilDiv (n d : Nat) : Except Failure Nat := do
  let sum ← add n d
  return (sum - 1) / d

/-- The first number that is no size of a buffer. -/
def bufferLimit : Nat := 0x8000000000000000

/-- The bytes of a buffer for `count` items of `size` bytes. -/
def buffer (count size : Nat) : Except Failure Nat :=
  if count * size < bufferLimit then .ok (count * size) else .error (.fault .bufferTooLarge)

end SectorFS.Size
