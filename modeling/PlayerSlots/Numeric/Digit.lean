/-! # Decimal digits

`digitsOf n` are the digits of `n`, the most significant first, without leading zeros;
`valueOf` reads digits back (`valueOf_digitsOf`).
-/

namespace PlayerSlots
set_option autoImplicit false

abbrev Digit := Fin 10

namespace Digit

def toChar (d : Digit) : Char := Char.ofNat (48 + d.val)

def ofChar? (c : Char) : Option Digit :=
  if h : 48 ≤ c.toNat ∧ c.toNat < 58 then some ⟨c.toNat - 48, by omega⟩ else none

@[simp] theorem ofChar?_toChar (d : Digit) : ofChar? d.toChar = some d := by
  revert d; decide

end Digit

/-- The number that digits stand for, the most significant digit first. -/
def valueOf (ds : List Digit) : Nat := ds.foldl (fun n d => 10 * n + d.val) 0

/-- The digits of a number, the most significant first, without leading zeros. -/
def digitsOf (n : Nat) : List Digit :=
  if h : n < 10 then [⟨n, h⟩] else digitsOf (n / 10) ++ [⟨n % 10, Nat.mod_lt _ (by decide)⟩]

@[simp] theorem valueOf_append_singleton (ds : List Digit) (d : Digit) :
    valueOf (ds ++ [d]) = 10 * valueOf ds + d.val := by
  simp [valueOf]

@[simp] theorem valueOf_digitsOf (n : Nat) : valueOf (digitsOf n) = n := by
  fun_induction digitsOf n with
  | case1 n h => simp [valueOf]
  | case2 n h ih => rw [valueOf_append_singleton, ih]; simp only []; omega

theorem digitsOf_ne_nil (n : Nat) : digitsOf n ≠ [] := by
  rw [digitsOf]; split <;> simp

def decimal (n : Nat) : List Char := (digitsOf n).map Digit.toChar

end PlayerSlots
