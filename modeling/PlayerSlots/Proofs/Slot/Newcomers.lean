import Mathlib.Data.Finset.Card
import Mathlib.Data.Finset.Dedup
import PlayerSlots.Proofs.Slot.Pass

/-! # New hardware

A newcomer is an unknown device for which the known ones leave a position. A pass over a sound table
is worth saving exactly if it has one, and without one it keeps the ids of the table. After a pass
there are none left, so that the next pass over the same devices changes nothing.

* `newcomers_eq_nil_iff`, `newDevice_runPass_iff`: when there are newcomers.
* `newDevice_iff_exists_unsaved`, `devices_runPass_of_not_newDevice`: what they do to the ids.
* `runPass_runPass`: a second pass.
* `origin_of_mem_runPass`: every binding is the saved one or the provider's, with a color.
-/

namespace PlayerSlots.Slot
set_option autoImplicit false

variable {limit : Nat} {table saved : List Slot} {connected connected' : List Device}
  {provider : Provider}

/-! ## When there are newcomers -/

theorem unknown_eq_nil_iff :
    unknown connected saved = [] ↔ ∀ i ∈ connected.map (·.id), i ≠ "" → i ∈ devices saved := by
  rw [← List.map_eq_nil_iff (f := fun d : Device => d.id), List.eq_nil_iff_forall_not_mem]
  constructor
  · intro hnone i hi hne
    by_contra hout
    exact hnone i (mem_ids_unknown.2 ⟨hi, hne, hout⟩)
  · intro hknown i hi
    obtain ⟨hi, hne, hout⟩ := mem_ids_unknown.1 hi
    exact hout (hknown i hi hne)

/-- There is no newcomer iff every device that counts is known, or the known ones use all
positions. -/
theorem newcomers_eq_nil_iff (h : WellFormed limit saved) :
    (place connected saved limit provider).newcomers = [] ↔
      (∀ i ∈ connected.map (·.id), i ≠ "" → i ∈ devices saved) ∨
        limit ≤ (known connected saved).length := by
  rw [newcomers_place_of_wellFormed h, List.take_eq_nil_iff, unknown_eq_nil_iff,
    Nat.sub_eq_zero_iff_le, or_comm]

/-- As many devices are known as distinct ids are both connected and in the table. -/
theorem card_connected_inter (hpresent : ∀ i ∈ devices saved, i ≠ "") (connected : List Device) :
    ((connected.map (·.id)).toFinset ∩ (devices saved).toFinset).card
      = (known connected saved).length := by
  have hids : (connected.map (·.id)).toFinset ∩ (devices saved).toFinset
      = (devices (known connected saved)).toFinset := by
    ext i
    rw [Finset.mem_inter, List.mem_toFinset, List.mem_toFinset, List.mem_toFinset,
      mem_devices_known]
    constructor
    · rintro ⟨hi, hin⟩
      exact ⟨hi, hpresent i hin, hin⟩
    · rintro ⟨hi, -, hin⟩
      exact ⟨hi, hin⟩
  rw [hids, List.toFinset_card_of_nodup (devices_known_nodup connected saved), List.length_map]

/-- A device that is left out while connected devices hold all positions is no newcomer. -/
theorem newcomers_eq_nil_of_seated_or_full (h : WellFormed limit table)
    (hserved : ∀ i ∈ connected.map (·.id), i ≠ "" → i ∈ devices table ∨
      (table.length = limit ∧ ∀ j ∈ devices table, j ∈ connected.map (·.id))) :
    (place connected table limit provider).newcomers = [] := by
  rw [newcomers_eq_nil_iff h]
  by_cases hall : ∀ i ∈ connected.map (·.id), i ≠ "" → i ∈ devices table
  · exact .inl hall
  · right
    push Not at hall
    obtain ⟨i, hi, hne, hout⟩ := hall
    obtain ⟨hlen, hheld⟩ := (hserved i hi hne).resolve_left hout
    have hsub : devices table ⊆ devices (known connected table) := fun j hj =>
      mem_devices_known.2 ⟨hheld j hj, h.present j hj, hj⟩
    have hle := h.distinct.length_le_of_subset hsub
    rwa [List.length_map, List.length_map, hlen] at hle

/-! ## What a pass reports -/

section Pass
variable (options : PassOptions)

theorem newDevice_runPass_iff_newcomers :
    (runPass connected saved provider options).newDevice = true ↔
      (place connected saved options.maxSlots provider).newcomers ≠ [] :=
  decide_eq_true_iff

theorem persist_runPass (connected : List Device) (saved : List Slot) (provider : Provider) :
    (runPass connected saved provider options).persist
      = (runPass connected saved provider options).newDevice := by
  show (settle _ saved (runPass connected saved provider options).newDevice).persist = _
  unfold settle
  split
  · rename_i hnew
    exact hnew.symm
  · rename_i hold
    exact (Bool.eq_false_of_not_eq_true hold).symm

/-- A pass meets new hardware iff some unknown device is connected and the known ones leave a
position. -/
theorem newDevice_runPass_iff (h : WellFormed options.maxSlots saved) :
    (runPass connected saved provider options).newDevice = true ↔
      (∃ d ∈ connected, d.IsValid ∧ d.id ∉ devices saved) ∧
        ((connected.map (·.id)).toFinset ∩ (devices saved).toFinset).card < options.maxSlots := by
  rw [newDevice_runPass_iff_newcomers, Ne, newcomers_eq_nil_iff h,
    card_connected_inter h.present, not_or, Nat.not_le]
  refine and_congr_left fun _ => ?_
  constructor
  · intro hsome
    push Not at hsome
    obtain ⟨i, hi, hne, hout⟩ := hsome
    obtain ⟨d, hd, rfl⟩ := List.mem_map.1 hi
    exact ⟨d, hd, hne, hout⟩
  · rintro ⟨d, hd, hvalid, hout⟩ hall
    exact hout (hall d.id (List.mem_map_of_mem hd) hvalid)

theorem devices_runPass_of_not_newDevice (h : WellFormed options.maxSlots saved)
    (hold : (runPass connected saved provider options).newDevice = false) :
    devices (runPass connected saved provider options).slots = devices saved := by
  have hnone : (place connected saved options.maxSlots provider).newcomers = [] := by
    by_contra hsome
    rw [(newDevice_runPass_iff_newcomers options).2 hsome] at hold
    cases hold
  rw [runPass_of_newcomers_nil options h hnone, devices_colorAll]

/-- A pass meets new hardware iff an id is in the table that was not there before. -/
theorem newDevice_iff_exists_unsaved (h : WellFormed options.maxSlots saved) :
    (runPass connected saved provider options).newDevice = true ↔
      ∃ i ∈ devices (runPass connected saved provider options).slots, i ∉ devices saved := by
  constructor
  · intro hnew
    obtain ⟨d, hd⟩ := List.exists_mem_of_ne_nil _ ((newDevice_runPass_iff_newcomers options).1 hnew)
    have hid := List.mem_map_of_mem (f := fun d : Device => d.id) hd
    exact ⟨d.id, mem_runPass_of_newcomer options h hid, (mem_ids_newcomers hid).2.2⟩
  · rintro ⟨i, hi, hout⟩
    by_contra hold
    rw [devices_runPass_of_not_newDevice options h (Bool.eq_false_of_not_eq_true hold)] at hi
    exact hout hi

/-! ## A second pass -/

@[simp] theorem colorAll_colorAll (overflow : Overflow) (table : List Slot) :
    colorAll overflow (colorAll overflow table) = colorAll overflow table := by
  rw [colorAll, colorAll, List.map_map]
  refine List.map_congr_left fun s _ => ?_
  simp [colored]

theorem colorAll_runPass (connected : List Device) (saved : List Slot) (provider : Provider) :
    colorAll options.overflow (runPass connected saved provider options).slots
      = (runPass connected saved provider options).slots :=
  colorAll_colorAll _ _

/-- A pass changes nothing in what a pass over the same ids has made, however they are ordered,
repeated or named, and whether or not there were enough positions. -/
theorem runPass_runPass (h : WellFormed options.maxSlots saved)
    (hids : ∀ i, i ≠ "" → (i ∈ connected'.map (·.id) ↔ i ∈ connected.map (·.id)))
    (provider provider' : Provider) :
    runPass connected' (runPass connected saved provider options).slots provider' options =
      { slots := (runPass connected saved provider options).slots
        newDevice := false
        persist := false
        asked := [] } := by
  have hout := wellFormed_runPass options h connected provider
  have hnone : (place connected' (runPass connected saved provider options).slots
      options.maxSlots provider').newcomers = [] := by
    apply newcomers_eq_nil_of_seated_or_full hout
    intro i hi hne
    rcases mem_runPass_or_full options h provider ((hids i hne).1 hi) hne with hin | ⟨hlen, hheld⟩
    · exact .inl hin
    · exact .inr ⟨hlen, fun j hj => (hids j (hout.present j hj)).2 (hheld j hj)⟩
  rw [runPass_of_newcomers_nil options hout hnone, colorAll_runPass]

/-! ## Where the bindings come from -/

/-- Every slot has the saved binding of its device, or is that of a newcomer and has the provider's,
with the color of its position. -/
theorem origin_of_mem_runPass (h : WellFormed options.maxSlots saved) {y : Slot}
    (hy : y ∈ (runPass connected saved provider options).slots) :
    (∃ x ∈ saved, x.device = y.device ∧
      y.binding = x.binding.setColor (options.overflow.color? y.index)) ∨
    (∃ d ∈ (place connected saved options.maxSlots provider).newcomers, d.id = y.device ∧
      y.binding = (provider.binding d.name).setColor (options.overflow.color? y.index)) := by
  by_cases hnew : (place connected saved options.maxSlots provider).newcomers = []
  · rw [runPass_of_newcomers_nil options h hnew] at hy
    obtain ⟨x, hx, rfl⟩ := List.mem_map.1 hy
    exact .inl ⟨x, hx, rfl, rfl⟩
  · rw [runPass_of_newcomers_ne_nil options hnew] at hy
    obtain ⟨z, hz, rfl⟩ := List.mem_map.1 hy
    have hmem := ((occupants_compact_perm _).trans (occupants_place_perm ..)).mem_iff.1
      (List.mem_map_of_mem hz)
    rw [known_take_limit h, occupants, List.mem_map] at hmem
    obtain ⟨e, he, heq⟩ := hmem
    obtain ⟨hdevice, hbinding⟩ := Prod.mk.inj heq
    have hcolored : (colored options.overflow z).binding
        = e.binding.setColor (options.overflow.color? z.index) := by
      rw [hbinding]
      rfl
    rcases List.mem_append.1 he with he | he
    · exact .inl ⟨e, mem_of_mem_known he, hdevice, hcolored⟩
    · obtain ⟨d, hd, rfl⟩ := List.mem_map.1 he
      exact .inr ⟨d, hd, hdevice, hcolored⟩

end Pass

end PlayerSlots.Slot
