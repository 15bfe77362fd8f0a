import PlayerSlots.Binding.Encoding
import PlayerSlots.Binding.Layout
import PlayerSlots.Proofs.Json.Lexing
import PlayerSlots.Proofs.Json.Values

/-! # Bindings read back

A binding that is written and read again is the same up to its floating-point numbers: each of
them becomes the number that its text is read as.

* `Binding.reread?`: the binding with this number in the place of each; there is none if one of the
  texts is no number.
* `Binding.ofJson?_toJson`: that is what reading gives. No name is spelled in two ways, no two
  fields of a structure share one, and nothing but a floating-point number is refused for being kept
  until the kind is known.
* `Binding.FloatsReadBack`, `Binding.reread?_eq_self_iff`: the binding itself comes back exactly if
  every number in it does.
-/

namespace PlayerSlots
set_option autoImplicit false

open Json

/-! ## Names -/

@[simp] theorem Controller.kept?_name (c : Controller) : kept? names (str c.name) = some c := by
  cases c <;> rfl

@[simp] theorem PadInput.kept?_name (i : PadInput) : kept? names (str i.name) = some i := by
  cases i <;> rfl

@[simp] theorem StickInput.kept?_name (i : StickInput) : kept? names (str i.name) = some i := by
  cases i <;> rfl

@[simp] theorem MotionSource.kept?_name (s : MotionSource) :
    kept? names (str s.name) = some s := by
  cases s <;> rfl

/-! ## Structures without floating-point numbers -/

@[simp] theorem LeftButtons.ofJson?_toJson (b : LeftButtons) : ofJson? b.toJson = some b := by
  simp [ofJson?, toJson, members?_record]

@[simp] theorem RightButtons.ofJson?_toJson (b : RightButtons) : ofJson? b.toJson = some b := by
  simp [ofJson?, toJson, members?_record]

@[simp] theorem Stick.ofJson?_toJson (s : Stick) : ofJson? s.toJson = some s := by
  simp [ofJson?, toJson, members?_record]

@[simp] theorem Light.ofJson?_toJson (l : Light) : ofJson? l.toJson = some l := by
  simp [ofJson?, toJson, members?_record]

@[simp] theorem KeyMap.ofJson?_toJson (m : KeyMap) : ofJson? m.toJson = some m := by
  rw [toJson, record, ofJson?, List.mapM_map, List.mapM_map, mapM_eq_some_self_iff.2,
    Option.bind_eq_bind, Option.bind_some, ofList_entries]
  intro p hp
  rfl

/-! ## Structures with floating-point numbers -/

def Motion.reread? (m : Motion) : Option Motion := do
  some { m with gyroDeadzone := ← (double m.gyroDeadzone).asFloating? }

def Rumble.reread? (r : Rumble) : Option Rumble := do
  some
    { r with
      strong := ← (single r.strong).asFloating?
      weak := ← (single r.weak).asFloating? }

def PadBinding.reread? (b : PadBinding) : Option PadBinding := do
  some
    { b with
      leftDeadzone := ← (single b.leftDeadzone).asFloating?
      rightDeadzone := ← (single b.rightDeadzone).asFloating?
      leftRange := ← (single b.leftRange).asFloating?
      rightRange := ← (single b.rightRange).asFloating?
      triggerThreshold := ← (single b.triggerThreshold).asFloating?
      motion := ← b.motion.reread?
      rumble := ← b.rumble.reread? }

/-- The binding with each floating-point number as its text is read. -/
def Binding.reread? : Binding → Option Binding
  | pad b => b.reread?.map pad
  | keyboard b => some (keyboard b)

/-- The single-precision numbers of a layout. -/
def PadBinding.singles (b : PadBinding) : List Binary32 :=
  [b.leftDeadzone, b.rightDeadzone, b.leftRange, b.rightRange, b.triggerThreshold, b.rumble.strong,
    b.rumble.weak]

theorem PadBinding.isSome_reread?_iff (b : PadBinding) :
    b.reread?.isSome ↔ (∀ x ∈ b.singles, ((single x).asFloating? : Option Binary32).isSome) ∧
      ((double b.motion.gyroDeadzone).asFloating? : Option Binary64).isSome := by
  simp [reread?, Motion.reread?, Rumble.reread?, singles, Option.isSome_iff_exists,
    Option.bind_eq_some_iff]
  -- the gyroscope comes before the rumble here, and last there
  tauto

@[simp] theorem Motion.ofJson?_toJson (m : Motion) : ofJson? m.toJson = m.reread? := by
  simp [ofJson?, toJson, members?_record, reread?]

@[simp] theorem Rumble.ofJson?_toJson (r : Rumble) : ofJson? r.toJson = r.reread? := by
  simp [ofJson?, toJson, members?_record, reread?]

@[simp] theorem PadBinding.ofJson?_fields (b : PadBinding) :
    ofJson? (record b.fields) = b.reread? := by
  rw [ofJson?, members?_record]
  · rw [Option.bind_eq_bind, Option.bind_some]
    simp [fields, reread?]
  · rfl
  · decide

@[simp] theorem KeyBinding.ofJson?_fields (b : KeyBinding) :
    ofJson? (record b.fields) = some b := by
  simp [ofJson?, fields, members?_record, optional?, List.lookup]

/-! ## Before the kind is known -/

theorem Json.isReadable_record (fields : List (String × Json)) :
    (record fields).isReadable = fields.all (·.2.isReadable) := by
  rw [record, isReadable]
  induction fields with
  | nil => rfl
  | cons f fields ih => rw [List.map_cons, readableFields, ih]; rfl

theorem Json.depth_record_le {fields : List (String × Json)} {n : Nat}
    (h : ∀ f ∈ fields, f.2.depth ≤ n) : (record fields).depth ≤ n + 1 := by
  rw [record, depth]
  induction fields with
  | nil => exact Nat.le_add_left ..
  | cons f fields ih =>
    have hf := h f (List.mem_cons_self ..)
    have hfields := ih fun g hg => h g (List.mem_cons_of_mem f hg)
    rw [List.map_cons, depthFields]
    omega

@[simp] theorem Json.depth_floating {f : BinaryFormat} (style : Numeral.DecimalStyle)
    (x : Floating f) : (floating style x).depth = 0 := by
  unfold floating
  split <;> rfl

namespace Binding

theorem splitKind?_record (kind : String) {fields : List (String × Json)}
    (h : ∀ f ∈ fields, f.1 ≠ "kind") :
    splitKind? (record (("kind", str kind) :: fields)) = some (kind, record fields) := by
  have hne : ∀ f ∈ named fields, (f.1 == some "kind") = false := by
    intro f hf
    obtain ⟨g, hg, rfl⟩ := List.mem_map.1 hf
    exact beq_false_of_ne fun hkind => h g hg (Option.some.inj hkind)
  have hnone : (named fields).filter (·.1 == some "kind") = [] :=
    List.filter_eq_nil_iff.2 fun f hf => by rw [hne f hf]; exact Bool.false_ne_true
  have hall : (named fields).filter (fun f => !(f.1 == some "kind")) = named fields :=
    List.filter_eq_self.2 fun f hf => by rw [hne f hf]; rfl
  have hsplit : (named (("kind", str kind) :: fields)).partition (·.1 == some "kind")
      = ([(some "kind", str kind)], named fields) := by
    rw [List.partition_eq_filter_filter, named, List.map_cons, List.filter_cons_of_pos rfl,
      List.filter_cons_of_neg Bool.false_ne_true]
    exact Prod.ext (congrArg (_ :: ·) hnone) hall
  show splitKind? (object (named _)) = _
  rw [splitKind?, hsplit]
  rfl

theorem depth_toJson_le (b : Binding) : b.toJson.depth ≤ 2 := by
  cases b with
  | pad b =>
    simp [toJson, PadBinding.fields, LeftButtons.toJson, RightButtons.toJson, Stick.toJson,
      Motion.toJson, Rumble.toJson, Light.toJson, record, depth, depthFields, single, double, str,
      nat, int]
  | keyboard b =>
    have hkeys : b.keys.toJson.depth ≤ 1 := by
      refine depth_record_le fun f hf => ?_
      obtain ⟨p, hp, rfl⟩ := List.mem_map.1 hf
      exact Nat.le_refl 0
    refine depth_record_le fun f hf => ?_
    simp only [KeyBinding.fields, List.mem_cons, List.not_mem_nil, or_false] at hf
    rcases hf with rfl | rfl | rfl
    · exact Nat.zero_le 1
    · exact Nat.zero_le 1
    · exact hkeys

/-- A binding that is read back can be kept until its kind is known. -/
theorem isReadable_toJson {b : Binding} (h : b.reread?.isSome) : b.toJson.isReadable = true := by
  cases b with
  | pad b =>
    have hread : b.reread?.isSome := by
      rw [reread?, Option.isSome_map] at h
      exact h
    obtain ⟨hsingles, hdouble⟩ := b.isSome_reread?_iff.1 hread
    have hsingle : ∀ x ∈ b.singles, (single x).isReadable = true :=
      fun x hx => isReadable_floating (hsingles x hx)
    have hgyro : (double b.motion.gyroDeadzone).isReadable = true := isReadable_floating hdouble
    simp only [PadBinding.singles, List.forall_mem_cons, List.not_mem_nil] at hsingle
    simp [toJson, isReadable_record, PadBinding.fields, LeftButtons.toJson, RightButtons.toJson,
      Stick.toJson, Motion.toJson, Rumble.toJson, Light.toJson, hsingle, hgyro]
  | keyboard b =>
    simp [toJson, isReadable_record, KeyBinding.fields, KeyMap.toJson]

theorem ofJson?_toJson {depth : Nat} (h : depth + 2 ≤ greatestDepth) (b : Binding) :
    ofJson? depth b.toJson = b.reread? := by
  have hdepth : depth + b.toJson.depth ≤ greatestDepth := by
    have hle := b.depth_toJson_le
    omega
  have hkept : ∀ (hread : b.toJson.isReadable = true), ofJson? depth b.toJson = b.reread? := by
    intro hread
    rw [ofJson?, if_pos ⟨hread, hdepth⟩]
    cases b with
    | pad b =>
      rw [toJson, splitKind?_record]
      · simp [reread?]
      · simp [PadBinding.fields]
    | keyboard b =>
      rw [toJson, splitKind?_record]
      · simp [reread?]
      · simp [KeyBinding.fields]
  by_cases hread : b.toJson.isReadable = true
  · exact hkept hread
  · have hnone : b.reread? = none := by
      rw [← Option.not_isSome_iff_eq_none]
      exact fun hsome => hread (isReadable_toJson hsome)
    rw [ofJson?, if_neg (fun hboth => hread hboth.1), hnone]

end Binding

@[simp] theorem Json.written_floating {f : BinaryFormat} (style : Numeral.DecimalStyle)
    (x : Floating f) : Written (floating style x) := by
  unfold floating
  split
  · exact .number _
  · exact .null

@[simp] theorem Json.written_nat (n : Nat) : Written (nat n) := .number _

theorem Binding.written_toJson (b : Binding) : Written b.toJson := by
  cases b with
  | pad b =>
    refine .record ?_
    simp [PadBinding.fields, LeftButtons.toJson, RightButtons.toJson, Stick.toJson, Motion.toJson,
      Rumble.toJson, Light.toJson, single, double, Written.record, Written.str, Written.bool]
  | keyboard b =>
    have hkeys : Written b.keys.toJson := by
      refine .record fun f hf => ?_
      obtain ⟨p, hp, rfl⟩ := List.mem_map.1 hf
      exact .str _
    refine .record ?_
    simp [KeyBinding.fields, hkeys, Written.str]

/-! ## When a binding comes back -/

theorem PadBinding.reread?_eq_self_iff (b : PadBinding) :
    b.reread? = some b ↔ (∀ x ∈ b.singles, (single x).asFloating? = some x) ∧
      (double b.motion.gyroDeadzone).asFloating? = some b.motion.gyroDeadzone := by
  obtain ⟨_, _, _, _, _, _, _, _, _, _, ⟨⟩, ⟨⟩, _⟩ := b
  simp [reread?, Motion.reread?, Rumble.reread?, singles, Option.bind_eq_some_iff]
  tauto

/-- Every floating-point number is read back as it was. -/
def Binding.FloatsReadBack : Binding → Prop
  | pad b => (∀ x ∈ b.singles, (single x).asFloating? = some x) ∧
      (double b.motion.gyroDeadzone).asFloating? = some b.motion.gyroDeadzone
  | keyboard _ => True

instance : DecidablePred Binding.FloatsReadBack
  | .pad _ => inferInstanceAs (Decidable (_ ∧ _))
  | .keyboard _ => inferInstanceAs (Decidable True)

theorem Binding.reread?_eq_self_iff (b : Binding) : b.reread? = some b ↔ b.FloatsReadBack := by
  cases b with
  | pad b =>
    rw [FloatsReadBack, ← b.reread?_eq_self_iff, reread?, Option.map_eq_some_iff]
    simp
  | keyboard b => simp [reread?, FloatsReadBack]

/-- Every default layout comes back. -/
theorem Binding.floatsReadBack_standard (c : Controller) : (standard c).FloatsReadBack := by
  cases c <;> decide +kernel

end PlayerSlots
