import Mathlib
import PlayerSlots.Text.Utf8

/-! # Bytes of a text

Every character is read back from its bytes, whatever bytes follow, and so is every text
(`decode_encode`): no byte of it is a stray one.
-/

namespace PlayerSlots.Text
set_option autoImplicit false

theorem toNat_ofNat {n : Nat} (h : n < 256) : (UInt8.ofNat n).toNat = n := by
  simp [Nat.mod_eq_of_lt h]

theorem toNat_lt (c : Char) : c.toNat < 0x110000 := by
  have hvalid := c.valid
  simp only [UInt32.isValidChar, Nat.isValidChar] at hvalid
  have htoNat : c.toNat = c.val.toNat := rfl
  omega

@[simp] theorem continuation?_continuation (n : Nat) :
    continuation? (continuation n) = some (n % 64) := by
  have hlt : 0x80 + n % 64 < 256 := by omega
  have hbyte : (continuation n).toNat = 0x80 + n % 64 := toNat_ofNat hlt
  rw [continuation?, hbyte, if_pos (by omega), Nat.add_sub_cancel_left]

/-- A character is the one with its code point. -/
theorem codePoint?_toNat {c : Char} {least : Nat} (h : least ≤ c.toNat) :
    codePoint? least c.toNat = some c := by
  rw [codePoint?, dif_pos ⟨h, c.valid⟩]
  rfl

theorem oneByte?_eq_none {a : UInt8} (h : 0x80 ≤ a.toNat) : oneByte? a = none := by
  rw [oneByte?, if_neg (by omega)]

theorem twoBytes?_eq_none {a : UInt8} (h : 0xE0 ≤ a.toNat) (b : UInt8) : twoBytes? a b = none := by
  rw [twoBytes?, if_neg (by omega)]

theorem threeBytes?_eq_none {a : UInt8} (h : 0xF0 ≤ a.toNat) (b c : UInt8) :
    threeBytes? a b c = none := by
  rw [threeBytes?, if_neg (by omega)]

/-! ## Characters of one to four bytes -/

section Character

variable {c : Char} {a : UInt8}

theorem character?_one (ha : a.toNat = c.toNat) (h : c.toNat < 0x80) (rest : List UInt8) :
    character? a rest = some (c, 0) := by
  have hone : oneByte? a = some c := by
    rw [oneByte?, ha, if_pos h, codePoint?_toNat (Nat.zero_le _)]
  simp [character?, hone]

theorem character?_two (ha : a.toNat = 0xC0 + c.toNat / 64) (h : 0x80 ≤ c.toNat)
    (hlt : c.toNat < 0x800) (rest : List UInt8) :
    character? a (continuation c.toNat :: rest) = some (c, 1) := by
  have hone := oneByte?_eq_none (a := a) (by omega)
  have hpoint : (0xC0 + c.toNat / 64 - 0xC0) * 64 + c.toNat % 64 = c.toNat := by omega
  have htwo : twoBytes? a (continuation c.toNat) = some c := by
    rw [twoBytes?, ha, if_pos (by omega), Option.bind_eq_bind, continuation?_continuation,
      Option.bind_some, hpoint, codePoint?_toNat h]
  simp [character?, hone, htwo]

theorem character?_three (ha : a.toNat = 0xE0 + c.toNat / 4096) (h : 0x800 ≤ c.toNat)
    (hlt : c.toNat < 0x10000) (rest : List UInt8) :
    character? a (continuation (c.toNat / 64) :: continuation c.toNat :: rest) = some (c, 2) := by
  have hone := oneByte?_eq_none (a := a) (by omega)
  have htwo := twoBytes?_eq_none (a := a) (by omega)
  have hpoint : (0xE0 + c.toNat / 4096 - 0xE0) * 4096 + c.toNat / 64 % 64 * 64 + c.toNat % 64
      = c.toNat := by omega
  have hthree : threeBytes? a (continuation (c.toNat / 64)) (continuation c.toNat) = some c := by
    rw [threeBytes?, ha, if_pos (by omega), Option.bind_eq_bind, continuation?_continuation,
      Option.bind_some, continuation?_continuation, Option.bind_some, hpoint, codePoint?_toNat h]
  simp [character?, hone, htwo, hthree]

theorem character?_four (ha : a.toNat = 0xF0 + c.toNat / 262144) (h : 0x10000 ≤ c.toNat)
    (rest : List UInt8) :
    character? a (continuation (c.toNat / 4096) :: continuation (c.toNat / 64)
      :: continuation c.toNat :: rest) = some (c, 3) := by
  have hlt := toNat_lt c
  have hone := oneByte?_eq_none (a := a) (by omega)
  have htwo := twoBytes?_eq_none (a := a) (by omega)
  have hthree := threeBytes?_eq_none (a := a) (by omega)
  have hpoint : (0xF0 + c.toNat / 262144 - 0xF0) * 262144 + c.toNat / 4096 % 64 * 4096
      + c.toNat / 64 % 64 * 64 + c.toNat % 64 = c.toNat := by omega
  have hfour : fourBytes? a (continuation (c.toNat / 4096)) (continuation (c.toNat / 64))
      (continuation c.toNat) = some c := by
    rw [fourBytes?, ha, if_pos (by omega), Option.bind_eq_bind, continuation?_continuation,
      Option.bind_some, continuation?_continuation, Option.bind_some, continuation?_continuation,
      Option.bind_some, hpoint, codePoint?_toNat h]
  simp [character?, hone, htwo, hthree, hfour]

end Character

/-! ## Texts -/

theorem decode_cons {a : UInt8} {rest : List UInt8} {c : Char} {more : Nat}
    (h : character? a rest = some (c, more)) :
    decode (a :: rest) = some c :: decode (rest.drop more) := by
  rw [decode, h]

theorem decode_encodeChar_append (c : Char) (rest : List UInt8) :
    decode (encodeChar c ++ rest) = some c :: decode rest := by
  have hlt := toNat_lt c
  unfold encodeChar
  by_cases h1 : c.toNat < 0x80
  · simp only [h1, if_true]
    exact decode_cons (character?_one (toNat_ofNat (by omega)) h1 rest)
  by_cases h2 : c.toNat < 0x800
  · simp only [h1, h2, if_true, if_false]
    exact decode_cons (character?_two (toNat_ofNat (by omega)) (Nat.not_lt.1 h1) h2 rest)
  by_cases h3 : c.toNat < 0x10000
  · simp only [h1, h2, h3, if_true, if_false]
    exact decode_cons (character?_three (toNat_ofNat (by omega)) (Nat.not_lt.1 h2) h3 rest)
  · simp only [h1, h2, h3, if_false]
    exact decode_cons (character?_four (toNat_ofNat (by omega)) (Nat.not_lt.1 h3) rest)

/-- A text is read back from its bytes. -/
theorem decode_encode (cs : List Char) : decode (encode cs) = cs.map some := by
  induction cs with
  | nil => simp [encode, decode]
  | cons c cs ih =>
    have hcons : encode (c :: cs) = encodeChar c ++ encode cs := List.flatMap_cons
    rw [hcons, decode_encodeChar_append, ih, List.map_cons]

end PlayerSlots.Text
