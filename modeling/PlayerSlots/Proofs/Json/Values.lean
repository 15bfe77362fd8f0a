import Mathlib
import PlayerSlots.Json.Decoding

/-! # Values read back

What the decoders make of the documents that the encoders write.

* `Json.members?_record`: a structure written with all its fields has these members.
* `Json.asInt?_int`: an integer that fits a word is read back, with `asNat?`, `asWord32?` and
  `asInt64?` after it.
* `Json.isReadable_floating`: a floating-point number that is read as some number can be kept for
  later.
-/

namespace PlayerSlots.Json
set_option autoImplicit false

/-! ## Elements, one by one -/

section Elements

variable {α β : Type} {f g : α → Option β} {l : List α}

theorem mapM_congr (h : ∀ a ∈ l, f a = g a) : l.mapM f = l.mapM g := by
  induction l with
  | nil => rfl
  | cons a l ih =>
    have ha := h a (List.mem_cons_self ..)
    have hl := ih fun b hb => h b (List.mem_cons_of_mem a hb)
    rw [List.mapM_cons, List.mapM_cons, ha, hl]

theorem mapM_eq_some_iff {l' : List β} :
    l.mapM f = some l' ↔ List.Forall₂ (fun a b => f a = some b) l l' := by
  induction l generalizing l' with
  | nil => simp [eq_comm]
  | cons a l ih =>
    have hcons : (a :: l).mapM f = some l' ↔ ∃ b, f a = some b ∧
        ∃ l'', List.Forall₂ (fun a b => f a = some b) l l'' ∧ b :: l'' = l' := by
      simp [Option.bind_eq_some_iff, ih]
    simp only [hcons, List.forall₂_cons_left_iff, eq_comm, exists_and_left]

theorem exists_of_mem_mapM {l' : List β} (h : l.mapM f = some l') {b : β} (hb : b ∈ l') :
    ∃ a ∈ l, f a = some b := by
  have hall := mapM_eq_some_iff.1 h
  clear h
  induction hall with
  | nil => cases hb
  | @cons a c l l' ha _ ih =>
    rcases List.mem_cons.1 hb with rfl | hb
    · exact ⟨a, List.mem_cons_self .., ha⟩
    · obtain ⟨a', ha', hb'⟩ := ih hb
      exact ⟨a', List.mem_cons_of_mem a ha', hb'⟩

theorem isSome_mapM_iff : (l.mapM f).isSome ↔ ∀ a ∈ l, (f a).isSome := by
  induction l with
  | nil => simp
  | cons a l ih =>
    rw [List.mapM_cons, List.forall_mem_cons, ← ih]
    cases f a <;> cases l.mapM f <;> simp

theorem mapM_eq_some_self_iff {f : α → Option α} : l.mapM f = some l ↔ ∀ a ∈ l, f a = some a := by
  rw [mapM_eq_some_iff, List.forall₂_same]

end Elements

/-! ## Structures -/

theorem mapM_named (fields : List (String × Json)) :
    (fields.map fun f => ((some f.1, f.2) : Option String × Json)).mapM
      (fun f => f.1.map fun name => (name, f.2)) = some fields := by
  induction fields with
  | nil => rfl
  | cons f fields ih =>
    rw [List.map_cons, List.mapM_cons, ih]
    rfl

/-- A structure that is written with all its fields has these members. -/
theorem members?_record {names : List String} {fields : List (String × Json)}
    (h : fields.map (·.1) = names) (hnodup : names.Nodup) :
    (record fields).members? names = some fields := by
  have hknown : fields.filter (fun f => f.1 ∈ names) = fields := by
    refine List.filter_eq_self.2 fun f hf => ?_
    rw [← h]
    exact decide_eq_true (List.mem_map_of_mem hf)
  have hnames : ((fields.filter (fun f => f.1 ∈ names)).map (·.1)).Nodup := by
    rw [hknown, h]
    exact hnodup
  rw [record, members?]
  simp only [mapM_named, Option.bind_eq_bind, Option.bind_some]
  rw [if_pos hnames, hknown]

section Members

variable {α : Type} {members : List (String × Json)} {name : String} {j : Json}
  {decode : Json → Option α}

@[simp] theorem required?_self :
    required? ((name, j) :: members) name decode = decode j := by
  simp [required?]

@[simp] theorem required?_of_ne {other : String} (h : name ≠ other) :
    required? ((other, j) :: members) name decode = required? members name decode := by
  have hname : (name == other) = false := beq_false_of_ne h
  simp only [required?, List.lookup, hname]

end Members

/-! ## Strings, numbers and lists -/

@[simp] theorem asText?_str (s : String) : (str s).asText? = some s := rfl

@[simp] theorem asBool?_bool (b : Bool) : (bool b).asBool? = some b := rfl

theorem value?_ofInt {n : Int} (hlow : -0x8000000000000000 ≤ n) (hhigh : n < UInt64.size) :
    (Numeral.ofInt n).value? = some (.integer n) := by
  simp only [UInt64.size, Nat.cast_ofNat] at hhigh
  have hword : n.natAbs < UInt64.size := by
    simp only [UInt64.size]
    omega
  rw [Numeral.value?, Numeral.ofInt, if_pos ⟨rfl, rfl, hword⟩]
  by_cases hneg : n < 0
  · have hsmall : ¬ (n.natAbs = 0 ∨ 0x8000000000000000 < n.natAbs) := by omega
    have habs : -(n.natAbs : Int) = n := by omega
    simp only [hneg, decide_true, not_true_eq_false, if_false, hsmall, habs]
  · have habs : (n.natAbs : Int) = n := by omega
    simp only [hneg, decide_false, Bool.false_eq_true, not_false_eq_true, if_true, habs]

theorem asInt?_int {n : Int} (hlow : -0x8000000000000000 ≤ n) (hhigh : n < UInt64.size) :
    (int n).asInt? = some n := by
  simp only [int, asInt?, value?_ofInt hlow hhigh]

theorem asNat?_nat {n bound : Nat} (h : n < bound) (hbound : bound ≤ UInt64.size) :
    (nat n).asNat? bound = some n := by
  have hint : (nat n).asInt? = some (n : Int) := asInt?_int (by omega) (by omega)
  have hn : 0 ≤ (n : Int) ∧ (n : Int) < bound := by omega
  simp only [asNat?, hint, Option.bind_eq_bind, Option.bind_some, if_pos hn, Int.toNat_natCast]

@[simp] theorem asWord32?_toNat (n : UInt32) : (nat n.toNat).asWord32? = some n := by
  have hn : (nat n.toNat).asNat? UInt32.size = some n.toNat :=
    asNat?_nat n.toNat_lt (by decide)
  simp only [asWord32?, hn, Option.bind_eq_bind, Option.bind_some, UInt32.ofNat_toNat]

theorem asInt64?_int {n : Int} (hlow : -0x8000000000000000 ≤ n) (hhigh : n < 0x8000000000000000) :
    (int n).asInt64? = some n := by
  have hint : (int n).asInt? = some n :=
    asInt?_int hlow (Int.lt_trans hhigh (by decide))
  simp only [asInt64?, hint, Option.bind_eq_bind, Option.bind_some, if_pos (And.intro hlow hhigh)]

@[simp] theorem isReadable_str (s : String) : (str s).isReadable = true := rfl

@[simp] theorem isReadable_bool (b : Bool) : (bool b).isReadable = true := rfl

@[simp] theorem isReadable_word (n : UInt32) : (nat n.toNat).isReadable = true := by
  have hn := n.toNat_lt
  have hvalue : (Numeral.ofInt (n.toNat : Int)).value? = some (.integer n.toNat) :=
    value?_ofInt (by omega) (by simp only [UInt64.size]; omega)
  rw [nat, int, isReadable, hvalue]
  rfl

/-- A floating-point number whose text is no number cannot be read later either. -/
theorem isReadable_floating {f : BinaryFormat} {style : Numeral.DecimalStyle} {x : Floating f}
    (h : ((floating style x).asFloating? : Option (Floating f)).isSome) :
    (floating style x).isReadable = true := by
  unfold floating at h ⊢
  split at h
  · next hfinite =>
    rw [if_pos hfinite, isReadable]
    cases hvalue : (Numeral.ofFloating style x).value? with
    | none =>
      rw [asFloating?, hvalue] at h
      cases h
    | some v => rfl
  · cases h

end PlayerSlots.Json
