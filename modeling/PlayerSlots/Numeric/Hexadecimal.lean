/-! # Hexadecimal digits

`hexDigit` writes a digit with a small letter, `capitalHexDigit` with a capital one; `hexDigit?`
reads both.
-/

namespace PlayerSlots
set_option autoImplicit false

/-- The character of a hexadecimal digit, with a small letter. -/
def hexDigit (n : Nat) : Char := if n < 10 then Char.ofNat (48 + n) else Char.ofNat (87 + n)

/-- The character of a hexadecimal digit, with a capital letter. -/
def capitalHexDigit (n : Nat) : Char := if n < 10 then Char.ofNat (48 + n) else Char.ofNat (55 + n)

def hexDigit? (c : Char) : Option Nat :=
  let n := c.toNat
  if 48 ≤ n ∧ n < 58 then some (n - 48)
  else if 97 ≤ n ∧ n < 103 then some (n - 87)
  else if 65 ≤ n ∧ n < 71 then some (n - 55)
  else none

theorem hexDigit?_hexDigit {n : Nat} (h : n < 16) : hexDigit? (hexDigit n) = some n := by
  revert n; decide

end PlayerSlots
