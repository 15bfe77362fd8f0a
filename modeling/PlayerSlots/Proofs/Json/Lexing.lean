import Mathlib
import PlayerSlots.Json.Printer
import PlayerSlots.Json.Token

/-! # The tokens of a written document

A document that is written falls into its tokens again, whatever the style.

* `Json.Written`: documents in which every string is a text. Only these have a text of their own.
* `Json.tokens`: the tokens of a document, in order.
* `Token.Lexes`: some characters are read as some tokens, in front of others.
* `Json.Written.lexes`: a written document is read as its tokens. A numeral needs something after
  it that does not go on with it (`Token.Stops`); all else is read in front of anything.
-/

namespace PlayerSlots.Json
set_option autoImplicit false

/-- The fields of an object with readable names. -/
def named (fields : List (String × Json)) : List (Option String × Json) :=
  fields.map fun f => (some f.1, f.2)

/-- Every string and every name is a text. -/
inductive Written : Json → Prop
  | null : Written .null
  | bool (b : Bool) : Written (.bool b)
  | number (n : Numeral) : Written (.number n)
  | str (s : String) : Written (.str s)
  | array {elements : List Json} (h : ∀ j ∈ elements, Written j) : Written (.array elements)
  | record {fields : List (String × Json)} (h : ∀ f ∈ fields, Written f.2) : Written (record fields)

mutual

def tokens : Json → List Token
  | null => [.null]
  | bool b => [.bool b]
  | number n => [.number n]
  | text s => [.text s]
  | array [] => [.openArray, .closeArray]
  | array (j :: rest) => [.openArray] ++ tokens j ++ elementTokens rest ++ [.closeArray]
  | object [] => [.openObject, .closeObject]
  | object ((name, j) :: rest) =>
    [.openObject, .text name, .colon] ++ tokens j ++ fieldTokens rest ++ [.closeObject]

/-- The tokens of the elements after the first. -/
def elementTokens : List Json → List Token
  | [] => []
  | j :: rest => [.comma] ++ tokens j ++ elementTokens rest

/-- The tokens of the fields after the first. -/
def fieldTokens : List (Option String × Json) → List Token
  | [] => []
  | (name, j) :: rest => [.comma, .text name, .colon] ++ tokens j ++ fieldTokens rest

end

namespace Token

/-- The characters are read as the tokens, in front of others. -/
def Lexes (cs : List Char) (ts : List Token) (rest : List Char) : Prop :=
  lex? ((cs ++ rest).map some) = (lex? (rest.map some)).map (ts ++ ·)

/-- The text does not go on with a numeral. -/
def Stops (rest : List Char) : Prop :=
  ∀ c ∈ rest.head?, Digit.ofChar? c = none ∧ c ≠ '.' ∧ c ≠ 'e' ∧ c ≠ 'E'

theorem lex?_cons (c : Char) (rest : List (Option Char)) :
    lex? (some c :: rest) = if isGap c then lex? rest
      else (next? c rest).bind fun p => (lex? p.2).map (p.1 :: ·) := by
  rw [lex?]
  split
  · rfl
  · split <;> simp_all

theorem lexes_nil (rest : List Char) : Lexes [] [] rest := by
  simp [Lexes]

theorem Lexes.append {cs ds rest : List Char} {ts us : List Token} (h : Lexes cs ts (ds ++ rest))
    (h' : Lexes ds us rest) : Lexes (cs ++ ds) (ts ++ us) rest := by
  unfold Lexes at h h' ⊢
  rw [List.append_assoc, h, h', Option.map_map]
  simp only [Function.comp_def, List.append_assoc]

theorem lexes_of_next? {c : Char} {cs rest : List Char} {t : Token} (hgap : isGap c = false)
    (h : next? c ((cs ++ rest).map some) = some (t, rest.map some)) : Lexes (c :: cs) [t] rest := by
  rw [Lexes, List.cons_append, List.map_cons, lex?_cons, hgap, h]
  rfl

/-- Gaps yield no token. -/
theorem lexes_gap {cs : List Char} (h : ∀ c ∈ cs, isGap c = true) (rest : List Char) :
    Lexes cs [] rest := by
  induction cs with
  | nil => exact lexes_nil rest
  | cons c cs ih =>
    have hc : isGap c = true := h c (List.mem_cons_self ..)
    have hcs := ih (fun d hd => h d (List.mem_cons_of_mem c hd))
    unfold Lexes at hcs ⊢
    rw [List.cons_append, List.map_cons, lex?_cons, hc, if_pos rfl, hcs]

theorem lexes_lineBreak (style : Style) (depth : Nat) (rest : List Char) :
    Lexes (style.lineBreak depth) [] rest := by
  refine lexes_gap ?_ rest
  intro c hc
  cases style with
  | compact => cases hc
  | pretty =>
    rcases List.mem_cons.1 hc with rfl | hc
    · rfl
    · rw [List.eq_of_mem_replicate hc]
      rfl

theorem lexes_colon (style : Style) (rest : List Char) : Lexes style.colon [.colon] rest := by
  cases style with
  | compact => exact lexes_of_next? rfl rfl
  | pretty =>
    have hcolon : Lexes [':'] [.colon] ([' '] ++ rest) := lexes_of_next? rfl rfl
    have hblank : Lexes [' '] [] rest := lexes_gap (by simp [isGap]) rest
    exact hcolon.append hblank

end Token

/-! ## Strings -/

theorem StringPart.join?_unit {n : Nat} (h : n < 0xD800) (parts : List StringPart) :
    join? (.unit n :: parts) = (join? parts).map (Char.ofNat n :: ·) := by
  have hhigh : ¬ IsHigh n := fun hn => Nat.not_le.2 h hn.1
  have hlow : ¬ IsLow n := fun hn => by have := hn.1; omega
  cases parts with
  | nil => simp [join?, hhigh, hlow]
  | cons p parts => cases p <;> simp [join?, hhigh, hlow]

theorem stringBody?_escaped {e c : Char} (h : escaped? e = some c) (rest : List (Option Char)) :
    stringBody? (some '\\' :: some e :: rest)
      = (stringBody? rest).map fun p => (.char c :: p.1, p.2) := by
  have hu : e ≠ 'u' := by
    rintro rfl
    cases h
  cases hrest : stringBody? rest <;> simp [stringBody?, h, hu, hrest]

theorem stringBody?_unit {n : Nat} (h : n < 0x20) (rest : List (Option Char)) :
    stringBody? (some '\\' :: some 'u' :: some '0' :: some '0' :: some (hexDigit (n / 16))
        :: some (hexDigit (n % 16)) :: rest)
      = (stringBody? rest).map fun p => (.unit n :: p.1, p.2) := by
  have hhigh : hexDigit? (hexDigit (n / 16)) = some (n / 16) := hexDigit?_hexDigit (by omega)
  have hlow : hexDigit? (hexDigit (n % 16)) = some (n % 16) := hexDigit?_hexDigit (by omega)
  have hzero : hexDigit? '0' = some 0 := rfl
  have hn : n / 16 * 16 + n % 16 = n := by omega
  cases hrest : stringBody? rest <;>
    simp [stringBody?, hexUnit?, hhigh, hlow, hzero, hn, hrest]

theorem stringBody?_plain {c : Char} (hquote : c ≠ '"') (hslash : c ≠ '\\') (h : 0x20 ≤ c.toNat)
    (rest : List (Option Char)) :
    stringBody? (some c :: rest) = (stringBody? rest).map fun p => (.char c :: p.1, p.2) := by
  have hcontrol : ¬ c.toNat < 0x20 := Nat.not_lt.2 h
  cases hrest : stringBody? rest <;> simp [stringBody?, hslash, hcontrol, hrest]

/-- The part stands for the character, and the characters are read as this part. -/
def StringPart.Spells (part : StringPart) (c : Char) (cs : List Char) : Prop :=
  (∀ parts, join? (part :: parts) = (join? parts).map (c :: ·)) ∧
    ∀ rest, stringBody? ((cs ++ rest).map some)
      = (stringBody? (rest.map some)).map fun p => (part :: p.1, p.2)

/-- Each way to escape a character is undone. -/
theorem exists_spells_escape (c : Char) : ∃ part : StringPart, part.Spells c (escape c) := by
  have hshort : ∀ e, escape c = ['\\', e] → escaped? e = some c →
      ∃ part : StringPart, part.Spells c (escape c) := by
    intro e hescape he
    refine ⟨.char c, fun parts => rfl, fun rest => ?_⟩
    rw [hescape]
    exact stringBody?_escaped he _
  by_cases hquote : c = '"'
  · subst hquote
    exact hshort '"' rfl rfl
  by_cases hslash : c = '\\'
  · subst hslash
    exact hshort '\\' rfl rfl
  by_cases h8 : c.toNat = 8
  · obtain rfl : c = Char.ofNat 8 := by rw [← h8, Char.ofNat_toNat]
    exact hshort 'b' rfl rfl
  by_cases h12 : c.toNat = 12
  · obtain rfl : c = Char.ofNat 12 := by rw [← h12, Char.ofNat_toNat]
    exact hshort 'f' rfl rfl
  by_cases hn : c = '\n'
  · subst hn
    exact hshort 'n' rfl rfl
  by_cases hr : c = '\r'
  · subst hr
    exact hshort 'r' rfl rfl
  by_cases ht : c = '\t'
  · subst ht
    exact hshort 't' rfl rfl
  by_cases hcontrol : c.toNat < 0x20
  · refine ⟨.unit c.toNat, fun parts => ?_, fun rest => ?_⟩
    · rw [StringPart.join?_unit (by omega), Char.ofNat_toNat]
    · simp only [escape, hquote, hslash, h8, h12, hn, hr, ht, hcontrol, if_false, if_true]
      exact stringBody?_unit hcontrol _
  · refine ⟨.char c, fun parts => rfl, fun rest => ?_⟩
    simp only [escape, hquote, hslash, h8, h12, hn, hr, ht, hcontrol, if_false]
    exact stringBody?_plain hquote hslash (Nat.not_lt.1 hcontrol) _

/-- Escaped characters up to a quote are read as parts that form them. -/
theorem exists_parts_escape (cs rest : List Char) :
    ∃ parts, StringPart.join? parts = some cs ∧
      stringBody? ((cs.flatMap escape ++ '"' :: rest).map some) = some (parts, rest.map some) := by
  induction cs with
  | nil => exact ⟨[], rfl, by simp [stringBody?]⟩
  | cons c cs ih =>
    obtain ⟨parts, hjoin, hbody⟩ := ih
    obtain ⟨part, hpart, hescape⟩ := exists_spells_escape c
    refine ⟨part :: parts, ?_, ?_⟩
    · rw [hpart, hjoin]
      rfl
    · rw [List.flatMap_cons, List.append_assoc, hescape, hbody]
      rfl

theorem Token.lexes_quoted (s : String) (rest : List Char) :
    Lexes (quoted s) [.text (some s)] rest := by
  obtain ⟨parts, hjoin, hbody⟩ := exists_parts_escape s.toList rest
  show Lexes ('"' :: (s.toList.flatMap escape ++ ['"'])) _ _
  refine lexes_of_next? rfl ?_
  rw [List.append_assoc]
  show (stringBody? _).map _ = _
  rw [List.singleton_append, hbody, Option.map_some]
  simp [hjoin]

/-! ## Numerals -/

theorem splitDigits_append (ds : List Digit) {rest : List Char}
    (h : ∀ c ∈ rest.head?, Digit.ofChar? c = none) :
    splitDigits ((ds.map Digit.toChar ++ rest).map some) = (ds, rest.map some) := by
  induction ds with
  | nil =>
    cases rest with
    | nil => rfl
    | cons c rest => simp [splitDigits, h c rfl]
  | cons d ds ih =>
    rw [List.map_cons, List.cons_append, List.map_cons, splitDigits, Digit.ofChar?_toChar, ih]

/-- The digits of a number other than zero start with one other than zero. -/
theorem exists_digitsOf {n : Nat} (h : n ≠ 0) : ∃ d ds, digitsOf n = d :: ds ∧ d.val ≠ 0 := by
  fun_induction digitsOf n with
  | case1 n hlt => exact ⟨⟨n, hlt⟩, [], rfl, h⟩
  | case2 n hge ih =>
    obtain ⟨d, ds, hds, hd⟩ := ih (by omega)
    exact ⟨d, _, by rw [hds, List.cons_append], hd⟩

theorem wholePart?_decimal (n : Nat) {rest : List Char}
    (h : ∀ c ∈ rest.head?, Digit.ofChar? c = none) :
    wholePart? ((decimal n ++ rest).map some) = some (n, rest.map some) := by
  have hvalue := valueOf_digitsOf n
  rw [wholePart?, decimal, splitDigits_append _ h]
  by_cases hzero : n = 0
  · subst hzero
    rw [digitsOf]
    rfl
  · obtain ⟨d, ds, hds, hd⟩ := exists_digitsOf hzero
    rw [hds] at hvalue ⊢
    cases ds with
    | nil => simpa [valueOf] using hvalue
    | cons e ds => simp [hd, hvalue]

theorem fractionPart?_digits (ds : List Digit) {rest : List Char}
    (h : ∀ c ∈ rest.head?, Digit.ofChar? c = none ∧ c ≠ '.') :
    fractionPart? (((if ds = [] then [] else '.' :: ds.map Digit.toChar) ++ rest).map some)
      = some (ds, rest.map some) := by
  by_cases hds : ds = []
  · rw [if_pos hds, hds, List.nil_append]
    cases rest with
    | nil => rfl
    | cons c rest => simp [fractionPart?, (h c rfl).2]
  · obtain ⟨d, ds', rfl⟩ := List.exists_cons_of_ne_nil hds
    have hsplit := splitDigits_append (d :: ds') fun c hc => (h c hc).1
    rw [if_neg hds, List.cons_append, List.map_cons, fractionPart?, hsplit]

theorem signedDigits?_decimal (negative : Bool) (n : Nat) {rest : List Char}
    (h : ∀ c ∈ rest.head?, Digit.ofChar? c = none) :
    signedDigits? negative ((decimal n ++ rest).map some)
      = some (some (if negative then -(n : Int) else n), rest.map some) := by
  rw [signedDigits?, decimal, splitDigits_append _ h]
  obtain ⟨d, ds, hds⟩ := List.exists_cons_of_ne_nil (digitsOf_ne_nil n)
  have hvalue := valueOf_digitsOf n
  rw [hds] at hvalue ⊢
  simp [hvalue]

theorem exponentPart?_render (e : Option Int) {rest : List Char}
    (h : ∀ c ∈ rest.head?, Digit.ofChar? c = none ∧ c ≠ 'e' ∧ c ≠ 'E') :
    exponentPart? (((e.map Numeral.renderExponent).getD [] ++ rest).map some)
      = some (e, rest.map some) := by
  cases e with
  | none =>
    cases rest with
    | nil => rfl
    | cons c rest => simp [exponentPart?, h c rfl]
  | some e =>
    have hdigits : ∀ negative, signedDigits? negative ((decimal e.natAbs ++ rest).map some)
        = some (some (if negative then -(e.natAbs : Int) else e.natAbs), rest.map some) :=
      fun negative => signedDigits?_decimal negative e.natAbs fun c hc => (h c hc).1
    rw [Option.map_some, Option.getD_some, Numeral.renderExponent, List.cons_append,
      List.cons_append, List.map_cons, List.map_cons]
    by_cases he : e < 0
    · have hsign : -(e.natAbs : Int) = e := by omega
      rw [if_pos he]
      show signedDigits? true _ = _
      rw [hdigits, if_pos rfl, hsign]
    · have hsign : (e.natAbs : Int) = e := by omega
      rw [if_neg he]
      show signedDigits? false _ = _
      rw [hdigits, if_neg Bool.false_ne_true, hsign]

/-- The text of a numeral after its sign. -/
def unsignedText (n : Numeral) : List Char :=
  decimal n.whole ++ ((if n.fraction = [] then [] else '.' :: n.fraction.map Digit.toChar)
    ++ (n.exponent.map Numeral.renderExponent).getD [])

theorem render_eq_unsignedText (n : Numeral) :
    n.render = (if n.negative then ['-'] else []) ++ unsignedText n := by
  simp only [Numeral.render, unsignedText, List.append_assoc]

theorem exists_unsignedText (n : Numeral) :
    ∃ (d : Digit) (tail : List Char), unsignedText n = d.toChar :: tail := by
  obtain ⟨d, ds, hds⟩ := List.exists_cons_of_ne_nil (digitsOf_ne_nil n.whole)
  exact ⟨d, _, by rw [unsignedText, decimal, hds, List.map_cons, List.cons_append]⟩

theorem numeral?_unsignedText (n : Numeral) {rest : List Char} (h : Token.Stops rest) :
    numeral? n.negative ((unsignedText n ++ rest).map some) = some (n, rest.map some) := by
  have hexponent : ∀ c ∈ ((n.exponent.map Numeral.renderExponent).getD [] ++ rest).head?,
      Digit.ofChar? c = none ∧ c ≠ '.' := by
    cases n.exponent with
    | none => exact fun c hc => ⟨(h c hc).1, (h c hc).2.1⟩
    | some e =>
      intro c hc
      cases hc
      decide
  have hfraction : ∀ c ∈ ((if n.fraction = [] then [] else '.' :: n.fraction.map Digit.toChar)
      ++ ((n.exponent.map Numeral.renderExponent).getD [] ++ rest)).head?,
      Digit.ofChar? c = none := by
    by_cases hnil : n.fraction = []
    · rw [if_pos hnil]
      exact fun c hc => (hexponent c hc).1
    · rw [if_neg hnil]
      intro c hc
      cases hc
      decide
  have hrest : ∀ c ∈ rest.head?, Digit.ofChar? c = none ∧ c ≠ 'e' ∧ c ≠ 'E' :=
    fun c hc => ⟨(h c hc).1, (h c hc).2.2⟩
  simp only [numeral?, unsignedText, List.append_assoc, Option.bind_eq_bind,
    wholePart?_decimal n.whole hfraction, fractionPart?_digits n.fraction hexponent,
    exponentPart?_render n.exponent hrest, Option.bind_some]

namespace Token

theorem next?_minus (rest : List (Option Char)) :
    next? '-' rest = (numeral? true rest).map fun p => (number p.1, p.2) :=
  rfl

theorem next?_digit (d : Digit) (rest : List (Option Char)) :
    next? d.toChar rest =
      (numeral? false (some d.toChar :: rest)).map fun p => (number p.1, p.2) := by
  revert rest
  fin_cases d <;> exact fun rest => rfl

theorem isGap_digit (d : Digit) : isGap d.toChar = false := by
  revert d
  decide

theorem lexes_numeral (n : Numeral) {rest : List Char} (h : Stops rest) :
    Lexes n.render [.number n] rest := by
  have hread := numeral?_unsignedText n h
  rw [render_eq_unsignedText]
  cases hneg : n.negative with
  | true =>
    rw [hneg] at hread
    show Lexes ('-' :: unsignedText n) _ _
    refine lexes_of_next? rfl ?_
    rw [next?_minus, hread]
    rfl
  | false =>
    obtain ⟨d, tail, htail⟩ := exists_unsignedText n
    rw [hneg, htail, List.cons_append, List.map_cons] at hread
    rw [htail]
    refine lexes_of_next? (isGap_digit d) ?_
    rw [next?_digit, hread]
    rfl

end Token

/-! ## Documents -/

open Token (Lexes Stops)

theorem stops_nil : Stops [] := nofun

theorem stops_cons {c : Char} (h : c ∈ [',', ']', '\x7d', '\n']) (rest : List Char) :
    Stops (c :: rest) := by
  intro d hd
  cases hd
  simp only [List.mem_cons, List.not_mem_nil, or_false] at h
  rcases h with rfl | rfl | rfl | rfl <;> decide

theorem stops_lineBreak (style : Style) (depth : Nat) {c : Char} (h : c ∈ [',', ']', '\x7d', '\n'])
    (rest : List Char) : Stops (style.lineBreak depth ++ c :: rest) := by
  cases style with
  | compact => exact stops_cons h rest
  | pretty => exact stops_cons (by decide) _

/-- A sign and the line break that may follow it. -/
theorem lexes_sign {c : Char} {t : Token} (hgap : Token.isGap c = false)
    (h : ∀ rest, Token.next? c rest = some (t, rest)) (style : Style) (depth : Nat)
    (rest : List Char) : Lexes (c :: style.lineBreak depth) [t] rest := by
  have hsign : Lexes [c] [t] (style.lineBreak depth ++ rest) :=
    Token.lexes_of_next? hgap (h _)
  exact hsign.append (Token.lexes_lineBreak style depth rest)

/-- The end of a container, after the line break that may precede it. -/
theorem lexes_end {c : Char} {t : Token} (hgap : Token.isGap c = false)
    (h : ∀ rest, Token.next? c rest = some (t, rest)) (style : Style) (depth : Nat)
    (rest : List Char) : Lexes (style.lineBreak depth ++ [c]) [t] rest := by
  have hsign : Lexes [c] [t] rest := Token.lexes_of_next? hgap (h _)
  exact (Token.lexes_lineBreak style depth ([c] ++ rest)).append hsign

section Containers

variable (style : Style) (depth : Nat) {rest : List Char}

theorem stops_elements (elements : List Json) (h : Stops rest) :
    Stops (renderElements style depth elements ++ rest) := by
  cases elements with
  | nil => exact h
  | cons j elements => exact stops_cons (by decide) _

theorem stops_fields (fields : List (Option String × Json)) (h : Stops rest) :
    Stops (renderFields style depth fields ++ rest) := by
  cases fields with
  | nil => exact h
  | cons f fields => exact stops_cons (by decide) _

theorem lexes_elements {elements : List Json}
    (ih : ∀ j ∈ elements, ∀ rest, Stops rest → Lexes (renderAt style depth j) (tokens j) rest)
    (h : Stops rest) :
    Lexes (renderElements style depth elements) (elementTokens elements) rest := by
  induction elements with
  | nil => exact Token.lexes_nil rest
  | cons j elements ihelements =>
    have hrest := ihelements fun k hk => ih k (List.mem_cons_of_mem j hk)
    have hj := ih j (List.mem_cons_self ..) _ (stops_elements style depth elements h)
    exact ((lexes_sign rfl (fun _ => rfl) style depth _).append hj).append hrest

theorem lexes_field (name : String) {j : Json}
    (hj : Lexes (renderAt style depth j) (tokens j) rest) :
    Lexes (quoted? (some name) ++ style.colon ++ renderAt style depth j)
      ([.text (some name), .colon] ++ tokens j) rest :=
  ((Token.lexes_quoted name _).append (Token.lexes_colon style _)).append hj

theorem lexes_fields {fields : List (String × Json)}
    (ih : ∀ f ∈ fields, ∀ rest, Stops rest → Lexes (renderAt style depth f.2) (tokens f.2) rest)
    (h : Stops rest) :
    Lexes (renderFields style depth (named fields)) (fieldTokens (named fields)) rest := by
  induction fields with
  | nil => exact Token.lexes_nil rest
  | cons f fields ihfields =>
    have hrest := ihfields fun g hg => ih g (List.mem_cons_of_mem f hg)
    have hf := lexes_field style depth f.1
      (ih f (List.mem_cons_self ..) _ (stops_fields style depth (named fields) h))
    have hall := ((lexes_sign (c := ',') rfl (fun _ => rfl) style depth _).append hf).append hrest
    simp only [← List.append_assoc] at hall
    exact hall

/-- A written document is read as its tokens, in front of anything that does not go on with a
numeral. -/
theorem Written.lexes {j : Json} (hj : Written j) (h : Stops rest) :
    Lexes (renderAt style depth j) (tokens j) rest := by
  induction hj generalizing depth rest with
  | null => exact Token.lexes_of_next? rfl rfl
  | bool b => cases b <;> exact Token.lexes_of_next? rfl rfl
  | number n => exact Token.lexes_numeral n h
  | str s => exact Token.lexes_quoted s rest
  | @array elements hj ih =>
    cases elements with
    | nil =>
      have hopen : Lexes ['['] [.openArray] ([']'] ++ rest) := Token.lexes_of_next? rfl rfl
      have hclose : Lexes [']'] [.closeArray] rest := Token.lexes_of_next? rfl rfl
      exact hopen.append hclose
    | cons j elements =>
      have hend : Lexes (style.lineBreak depth ++ [']']) [.closeArray] rest :=
        lexes_end rfl (fun _ => rfl) style depth rest
      have hstops : Stops (style.lineBreak depth ++ [']'] ++ rest) := by
        rw [List.append_assoc]
        exact stops_lineBreak style depth (by decide) rest
      have helements := lexes_elements style (depth + 1)
        (fun k hk _ hk' => ih k (List.mem_cons_of_mem j hk) (depth + 1) hk') hstops
      have hfirst := ih j (List.mem_cons_self ..) (depth + 1)
        (stops_elements style (depth + 1) elements hstops)
      have hall := (((lexes_sign (c := '[') rfl (fun _ => rfl) style (depth + 1) _).append
        hfirst).append helements).append hend
      simp only [← List.append_assoc] at hall
      exact hall
  | @record fields hj ih =>
    cases fields with
    | nil =>
      have hopen : Lexes ['\x7b'] [.openObject] (['\x7d'] ++ rest) := Token.lexes_of_next? rfl rfl
      have hclose : Lexes ['\x7d'] [.closeObject] rest := Token.lexes_of_next? rfl rfl
      exact hopen.append hclose
    | cons f fields =>
      have hend : Lexes (style.lineBreak depth ++ ['\x7d']) [.closeObject] rest :=
        lexes_end rfl (fun _ => rfl) style depth rest
      have hstops : Stops (style.lineBreak depth ++ ['\x7d'] ++ rest) := by
        rw [List.append_assoc]
        exact stops_lineBreak style depth (by decide) rest
      have hfields := lexes_fields style (depth + 1)
        (fun g hg _ hg' => ih g (List.mem_cons_of_mem f hg) (depth + 1) hg') hstops
      have hfirst := lexes_field style (depth + 1) f.1
        (ih f (List.mem_cons_self ..) (depth + 1)
          (stops_fields style (depth + 1) (named fields) hstops))
      have hall := (((lexes_sign (c := '\x7b') rfl (fun _ => rfl) style (depth + 1) _).append
        hfirst).append hfields).append hend
      simp only [← List.append_assoc] at hall
      exact hall

end Containers

end PlayerSlots.Json
