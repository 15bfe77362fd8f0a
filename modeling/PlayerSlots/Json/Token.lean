import PlayerSlots.Json.Basic
import PlayerSlots.Numeric.Hexadecimal

/-! # JSON tokens

* `Token.lex?`: the tokens of a text. The text is a list of characters in which `none` stands for a
  byte that belongs to no character; such bytes are allowed in strings only.
* `StringPart.join?`: the text of a string, if its parts form one.
-/

namespace PlayerSlots.Json
set_option autoImplicit false

inductive Token where
  | openArray
  | closeArray
  | openObject
  | closeObject
  | comma
  | colon
  | null
  | bool (b : Bool)
  | number (n : Numeral)
  | text (s : Option String)
deriving DecidableEq, Repr

inductive StringPart where
  | char (c : Char)
  /-- An escaped 16-bit unit. -/
  | unit (n : Nat)
  /-- A byte that belongs to no character. -/
  | stray
deriving DecidableEq, Repr

namespace StringPart

/-- The first half of a character beyond the 16-bit units. -/
def IsHigh (n : Nat) : Prop := 0xD800 ≤ n ∧ n < 0xDC00

/-- The second half of a character beyond the 16-bit units. -/
def IsLow (n : Nat) : Prop := 0xDC00 ≤ n ∧ n < 0xE000

instance (n : Nat) : Decidable (IsHigh n) := inferInstanceAs (Decidable (_ ∧ _))
instance (n : Nat) : Decidable (IsLow n) := inferInstanceAs (Decidable (_ ∧ _))

/-- The characters that the parts form. A half must meet its other half. -/
def join? : List StringPart → Option (List Char)
  | [] => some []
  | char c :: rest => (join? rest).map (c :: ·)
  | stray :: _ => none
  | unit n :: unit m :: rest =>
    if IsHigh n then
      if IsLow m then
        (join? rest).map (Char.ofNat (0x10000 + (n - 0xD800) * 0x400 + (m - 0xDC00)) :: ·)
      else none
    else if IsLow n then none
    else (join? (unit m :: rest)).map (Char.ofNat n :: ·)
  | unit n :: rest =>
    if IsHigh n ∨ IsLow n then none else (join? rest).map (Char.ofNat n :: ·)

end StringPart

def hexUnit? : Option Char → Option Char → Option Char → Option Char → Option Nat
  | some a, some b, some c, some d => do
    some ((← hexDigit? a) * 4096 + (← hexDigit? b) * 256 + (← hexDigit? c) * 16 + (← hexDigit? d))
  | _, _, _, _ => none

/-- The character that a letter after a backslash stands for. -/
def escaped? (c : Char) : Option Char :=
  match c with
  | '"' => some '"'
  | '\\' => some '\\'
  | '/' => some '/'
  | 'b' => some (Char.ofNat 8)
  | 'f' => some (Char.ofNat 12)
  | 'n' => some '\n'
  | 'r' => some '\r'
  | 't' => some '\t'
  | _ => none

/-- The parts of a string up to its closing quote, and what follows the quote. Characters below the
blank are not allowed as they are. -/
def stringBody? : List (Option Char) → Option (List StringPart × List (Option Char))
  | [] => none
  | some '\\' :: some 'u' :: a :: b :: c :: d :: rest => do
    let n ← hexUnit? a b c d
    let (parts, after) ← stringBody? rest
    some (.unit n :: parts, after)
  | some '\\' :: some e :: rest => do
    let c ← escaped? e
    let (parts, after) ← stringBody? rest
    some (.char c :: parts, after)
  | some '\\' :: _ => none
  | some '"' :: rest => some ([], rest)
  | some c :: rest =>
    if c.toNat < 0x20 then none
    else do
      let (parts, after) ← stringBody? rest
      some (.char c :: parts, after)
  | none :: rest => do
    let (parts, after) ← stringBody? rest
    some (.stray :: parts, after)

/-- The longest run of digits at the start of a text, and what follows it. -/
def splitDigits : List (Option Char) → List Digit × List (Option Char)
  | some c :: rest =>
    match Digit.ofChar? c with
    | some d =>
      let (ds, after) := splitDigits rest
      (d :: ds, after)
    | none => ([], some c :: rest)
  | rest => ([], rest)

/-- The whole part of a numeral: zero, or digits of which the first is not zero. -/
def wholePart? (cs : List (Option Char)) : Option (Nat × List (Option Char)) :=
  match splitDigits cs with
  | ([], _) => none
  | ([d], rest) => some (d.val, rest)
  | (d :: ds, rest) => if d.val = 0 then none else some (valueOf (d :: ds), rest)

/-- The fraction of a numeral, if there is one: a point and at least one digit. -/
def fractionPart? : List (Option Char) → Option (List Digit × List (Option Char))
  | some '.' :: rest =>
    match splitDigits rest with
    | ([], _) => none
    | (ds, after) => some (ds, after)
  | rest => some ([], rest)

/-- The digits of an exponent with its sign. -/
def signedDigits? (negative : Bool) (cs : List (Option Char)) :
    Option (Option Int × List (Option Char)) :=
  match splitDigits cs with
  | ([], _) => none
  | (ds, rest) => some (some (if negative then -(valueOf ds : Int) else valueOf ds), rest)

/-- The exponent of a numeral, if there is one: at least one digit, after a sign or not. -/
def exponentPart? : List (Option Char) → Option (Option Int × List (Option Char))
  | some c :: rest =>
    if c = 'e' ∨ c = 'E' then
      match rest with
      | some '+' :: rest => signedDigits? false rest
      | some '-' :: rest => signedDigits? true rest
      | rest => signedDigits? false rest
    else some (none, some c :: rest)
  | rest => some (none, rest)

/-- A numeral after its sign, and what follows it. -/
def numeral? (negative : Bool) (cs : List (Option Char)) :
    Option (Numeral × List (Option Char)) := do
  let (whole, cs) ← wholePart? cs
  let (fraction, cs) ← fractionPart? cs
  let (exponent, cs) ← exponentPart? cs
  some (⟨negative, whole, fraction, exponent⟩, cs)

namespace Token

/-- A token that starts with a character, and what follows it. -/
def next? (c : Char) (rest : List (Option Char)) : Option (Token × List (Option Char)) :=
  match c, rest with
  | '[', rest => some (openArray, rest)
  | ']', rest => some (closeArray, rest)
  | '\x7b', rest => some (openObject, rest)
  | '\x7d', rest => some (closeObject, rest)
  | ',', rest => some (comma, rest)
  | ':', rest => some (colon, rest)
  | 'n', some 'u' :: some 'l' :: some 'l' :: rest => some (null, rest)
  | 't', some 'r' :: some 'u' :: some 'e' :: rest => some (bool true, rest)
  | 'f', some 'a' :: some 'l' :: some 's' :: some 'e' :: rest => some (bool false, rest)
  | '"', rest => (stringBody? rest).map fun (parts, after) =>
      (text ((StringPart.join? parts).map String.ofList), after)
  | '-', rest => (numeral? true rest).map fun (n, after) => (number n, after)
  | c, rest => (numeral? false (some c :: rest)).map fun (n, after) => (number n, after)

def isGap (c : Char) : Bool := c == ' ' || c == '\t' || c == '\n' || c == '\r'

end Token

theorem length_stringBody? {cs after : List (Option Char)} {parts : List StringPart}
    (h : stringBody? cs = some (parts, after)) : after.length < cs.length := by
  fun_induction stringBody? cs generalizing parts after <;>
    simp_all [Option.bind_eq_some_iff] <;> grind

theorem length_splitDigits {cs after : List (Option Char)} {ds : List Digit}
    (h : splitDigits cs = (ds, after)) : after.length + ds.length = cs.length := by
  fun_induction splitDigits cs generalizing ds after with
  | case1 c rest d hd ds' after' hsplit ih =>
    cases h
    have hrest := ih hsplit
    simp only [List.length_cons]
    omega
  | case2 =>
    cases h
    rfl
  | case3 =>
    cases h
    rfl

theorem length_wholePart? {cs after : List (Option Char)} {n : Nat}
    (h : wholePart? cs = some (n, after)) : after.length < cs.length := by
  unfold wholePart? at h
  split at h
  · cases h
  · next d rest hsplit =>
    cases h
    have hlength := length_splitDigits hsplit
    simp only [List.length_singleton] at hlength
    omega
  · next d ds rest hsplit =>
    have hlength := length_splitDigits hsplit
    simp only [List.length_cons] at hlength
    split at h
    · cases h
    · cases h
      omega

theorem length_fractionPart? {cs after : List (Option Char)} {ds : List Digit}
    (h : fractionPart? cs = some (ds, after)) : after.length ≤ cs.length := by
  unfold fractionPart? at h
  split at h
  · next rest =>
    split at h
    · cases h
    · next hsplit =>
      cases h
      have hlength := length_splitDigits hsplit
      simp only [List.length_cons]
      omega
  · cases h
    exact Nat.le_refl _

theorem length_signedDigits? {negative : Bool} {cs after : List (Option Char)} {e : Option Int}
    (h : signedDigits? negative cs = some (e, after)) : after.length ≤ cs.length := by
  unfold signedDigits? at h
  split at h
  · cases h
  · next hsplit =>
    cases h
    have hlength := length_splitDigits hsplit
    omega

theorem length_exponentPart? {cs after : List (Option Char)} {e : Option Int}
    (h : exponentPart? cs = some (e, after)) : after.length ≤ cs.length := by
  unfold exponentPart? at h
  split at h
  · split at h
    · split at h
      all_goals
        have hl := length_signedDigits? h
        grind
    · simp_all
  · simp_all

theorem length_numeral? {negative : Bool} {cs after : List (Option Char)} {n : Numeral}
    (h : numeral? negative cs = some (n, after)) : after.length < cs.length := by
  simp only [numeral?, Option.bind_eq_bind, Option.bind_eq_some_iff, Prod.exists,
    Option.some.injEq, Prod.mk.injEq] at h
  obtain ⟨w, r₁, h₁, f, r₂, h₂, e, r₃, h₃, -, rfl⟩ := h
  have := length_wholePart? h₁
  have := length_fractionPart? h₂
  have := length_exponentPart? h₃
  omega

namespace Token

theorem length_next? {c : Char} {rest after : List (Option Char)} {t : Token}
    (h : next? c rest = some (t, after)) : after.length ≤ rest.length := by
  unfold next? at h
  split at h
  all_goals simp only [Option.some.injEq, Prod.mk.injEq, Option.map_eq_some_iff, Prod.exists] at h
  case h_10 => obtain ⟨p, r, h', -, rfl⟩ := h; exact Nat.le_of_lt (length_stringBody? h')
  case h_11 => obtain ⟨p, r, h', -, rfl⟩ := h; exact Nat.le_of_lt (length_numeral? h')
  case h_12 =>
    obtain ⟨p, r, h', -, rfl⟩ := h
    have := length_numeral? h'
    simp only [List.length_cons] at this
    omega
  all_goals
    obtain ⟨-, rfl⟩ := h
    grind

def lex? : List (Option Char) → Option (List Token)
  | [] => some []
  | none :: _ => none
  | some c :: rest =>
    if isGap c then lex? rest
    else
      match h : next? c rest with
      | none => none
      | some (t, after) =>
        have := length_next? h
        (lex? after).map (t :: ·)
termination_by cs => cs.length

end Token

end PlayerSlots.Json
