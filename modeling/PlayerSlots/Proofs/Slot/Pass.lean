import PlayerSlots.Proofs.Slot.Placement
import PlayerSlots.Slot.Pass

/-! # One pass over a sound table

* `runPass_of_newcomers_nil`: without a newcomer the saved table stays as it is, except for the
  colors; no exchange takes place.
* `runPass_of_newcomers_ne_nil`: with one, the fresh placement is renumbered without gaps.
* `wellFormed_runPass`: in both cases a sound table results.
* `keepsOrder_runPass`: who keeps a slot moves up at most, and past nobody.
* `mem_runPass_or_full`: a connected device is left out only for others that are connected.
-/

namespace PlayerSlots.Slot
set_option autoImplicit false

variable {limit : Nat} {table saved fresh : List Slot} {connected : List Device}
  {provider : Provider}

/-! ## Renumbering -/

theorem getElem?_numberFrom (start : Nat) (l : List Slot) (p : Nat) :
    (numberFrom start l)[p]? = l[p]?.map fun s => { s with index := start + p } := by
  induction l generalizing start p with
  | nil => rfl
  | cons s l ih =>
    cases p with
    | zero => rfl
    | succ p =>
      have hshift : start + 1 + p = start + (p + 1) := by omega
      rw [numberFrom, List.getElem?_cons_succ, List.getElem?_cons_succ, ih, hshift]

theorem indices_numberFrom (start : Nat) (l : List Slot) :
    indices (numberFrom start l) = List.range' start l.length := by
  induction l generalizing start with
  | nil => rfl
  | cons s l ih =>
    rw [numberFrom, List.length_cons, List.range'_succ, ← ih (start + 1)]
    rfl

theorem occupants_numberFrom (start : Nat) (l : List Slot) :
    occupants (numberFrom start l) = occupants l := by
  induction l generalizing start with
  | nil => rfl
  | cons s l ih =>
    show occupant s :: occupants (numberFrom (start + 1) l) = _
    rw [ih]
    rfl

theorem devices_numberFrom (start : Nat) (l : List Slot) :
    devices (numberFrom start l) = devices l :=
  devices_of_occupants (occupants_numberFrom start l)

theorem indices_compact (table : List Slot) :
    indices (compact table) = List.range table.length := by
  rw [compact, indices_numberFrom, length_sort, List.range_eq_range']

theorem indices_compact_ascending (table : List Slot) :
    (indices (compact table)).Pairwise (· < ·) := by
  rw [indices_compact]
  exact List.pairwise_lt_range

theorem occupants_compact_perm (table : List Slot) :
    (occupants (compact table)).Perm (occupants table) := by
  rw [compact, occupants_numberFrom]
  exact (sort_perm table).map _

theorem devices_compact_perm (table : List Slot) :
    (devices (compact table)).Perm (devices table) :=
  devices_perm_of_occupants (occupants_compact_perm table)

theorem devices_compact_of_ascending (h : (indices table).Pairwise (· < ·)) :
    devices (compact table) = devices table := by
  rw [compact, devices_numberFrom, sort_eq_self h]

/-- The slot at a place of a table in order gets that place as its position. -/
theorem getElem?_compact (h : (indices table).Pairwise (· < ·)) (p : Nat) :
    (compact table)[p]? = table[p]?.map fun x => { x with index := p } := by
  rw [compact, sort_eq_self h, getElem?_numberFrom]
  simp only [Nat.zero_add]

theorem wellFormed_compact (h : WellFormed limit table) : WellFormed limit (compact table) where
  ascending := indices_compact_ascending table
  below := by
    intro i hi
    rw [indices_compact, List.mem_range] at hi
    have := h.spread.length_le
    omega
  present := fun d hd => h.present d ((devices_compact_perm table).mem_iff.1 hd)
  distinct := (devices_compact_perm table).nodup_iff.2 h.distinct

/-! ## Exchange -/

theorem exchange_self (table : List Slot) (p : Nat) : exchange table p p = table := by
  unfold exchange
  cases hs : table[p]? with
  | none => rfl
  | some s =>
    obtain ⟨hp, rfl⟩ := List.getElem?_eq_some_iff.1 hs
    simp only [List.set_set]
    exact List.set_getElem_self hp

theorem occupants_set {p : Nat} {x : Slot} (h : (occupants table)[p]? = some (occupant x)) :
    occupants (table.set p x) = occupants table := by
  obtain ⟨hp, hget⟩ := List.getElem?_eq_some_iff.1 h
  rw [occupants, List.map_set, ← hget]
  exact List.set_getElem_self hp

/-- An exchange moves positions alone: every place keeps its device and its binding. -/
theorem occupants_exchange (table : List Slot) (p q : Nat) :
    occupants (exchange table p q) = occupants table := by
  unfold exchange
  split
  · rename_i s t hs ht
    have hfirst : occupants (table.set p { s with index := t.index }) = occupants table := by
      apply occupants_set
      rw [List.getElem?_map, hs]
      rfl
    rw [← hfirst]
    apply occupants_set
    rw [hfirst, List.getElem?_map, ht]
    rfl
  · rfl

theorem occupants_moveTo (table : List Slot) (fresh : Slot) :
    occupants (moveTo table fresh) = occupants table := by
  unfold moveTo
  split
  · exact occupants_exchange _ _ _
  · rfl

theorem occupants_foldl_moveTo (fresh table : List Slot) :
    occupants (fresh.foldl moveTo table) = occupants table := by
  induction fresh generalizing table with
  | nil => rfl
  | cons e fresh ih => rw [List.foldl_cons, ih, occupants_moveTo]

/-- Exchanges leave the saved table with what it held, whatever the fresh placement. -/
theorem occupants_realign_perm (fresh saved : List Slot) :
    (occupants (realign fresh saved)).Perm (occupants saved) := by
  rw [← occupants_foldl_moveTo fresh saved]
  exact (sort_perm _).map _

/-- A device that is at the position already is not moved. -/
theorem moveTo_eq_self (h : WellFormed limit table) {e : Slot} (he : e ∈ table) :
    moveTo table e = table := by
  obtain ⟨r, hr, rfl⟩ := List.getElem_of_mem he
  unfold moveTo
  split
  · rename_i p q hp hq
    obtain ⟨hp', hpd, -⟩ := List.findIdx?_eq_some_iff_getElem.1 hp
    obtain ⟨hq', hqi, -⟩ := List.findIdx?_eq_some_iff_getElem.1 hq
    have hpr : table[p] = table[r] :=
      h.eq_of_device_eq (List.getElem_mem hp') (List.getElem_mem hr) (by simpa using hpd)
    have hqr : table[q] = table[r] :=
      h.eq_of_index_eq (List.getElem_mem hq') (List.getElem_mem hr) (by simpa using hqi)
    have hnodup : table.Nodup := List.Nodup.of_map _ h.distinct
    have hpq : p = q := (hnodup.getElem_inj_iff).1 (hpr.trans hqr.symm)
    rw [hpq]
    exact exchange_self table q
  · rfl

/-- A fresh placement that agrees with the saved table changes nothing in it. -/
theorem realign_eq_self (h : WellFormed limit saved) (hsub : ∀ e ∈ fresh, e ∈ saved) :
    realign fresh saved = saved := by
  have hfold : fresh.foldl moveTo saved = saved := by
    induction fresh with
    | nil => rfl
    | cons e fresh ih =>
      rw [List.foldl_cons, moveTo_eq_self h (hsub e (List.mem_cons_self ..))]
      exact ih fun f hf => hsub f (List.mem_cons_of_mem e hf)
  rw [realign, hfold, h.sort_eq]

/-! ## Colors -/

/-- The slot with its color left aside. -/
def withoutColor (s : Slot) : Slot := { s with binding := s.binding.withoutColor }

/-- The same slots in the same order, except for their colors. -/
def SameUpToColor (t u : List Slot) : Prop := t.map withoutColor = u.map withoutColor

theorem SameUpToColor.indices_eq {t u : List Slot} (h : SameUpToColor t u) :
    indices t = indices u := by
  have := congrArg indices h
  simpa [indices, Function.comp_def, withoutColor] using this

theorem SameUpToColor.devices_eq {t u : List Slot} (h : SameUpToColor t u) :
    devices t = devices u := by
  have := congrArg devices h
  simpa [devices, Function.comp_def, withoutColor] using this

/-- Lookups by device find the same slots, except for their colors. -/
theorem SameUpToColor.ofDevice? {t u : List Slot} (h : SameUpToColor t u) (d : String) :
    (ofDevice? t d).map withoutColor = (ofDevice? u d).map withoutColor := by
  have hmap : ∀ l : List Slot,
      Slot.ofDevice? (l.map withoutColor) d = (Slot.ofDevice? l d).map withoutColor := by
    intro l
    rw [Slot.ofDevice?, List.find?_map]
    rfl
  rw [← hmap, ← hmap, h]

theorem sameUpToColor_colorAll (overflow : Overflow) (table : List Slot) :
    SameUpToColor (colorAll overflow table) table := by
  rw [SameUpToColor, colorAll, List.map_map]
  refine List.map_congr_left fun s _ => ?_
  simp [withoutColor, colored, Binding.withoutColor]

@[simp] theorem indices_colorAll (overflow : Overflow) (table : List Slot) :
    indices (colorAll overflow table) = indices table :=
  (sameUpToColor_colorAll overflow table).indices_eq

@[simp] theorem devices_colorAll (overflow : Overflow) (table : List Slot) :
    devices (colorAll overflow table) = devices table :=
  (sameUpToColor_colorAll overflow table).devices_eq

theorem wellFormed_colorAll (h : WellFormed limit table) (overflow : Overflow) :
    WellFormed limit (colorAll overflow table) where
  ascending := by rw [indices_colorAll]; exact h.ascending
  below := by rw [indices_colorAll]; exact h.below
  present := by rw [devices_colorAll]; exact h.present
  distinct := by rw [devices_colorAll]; exact h.distinct

/-! ## The pass -/

theorem newcomers_eq_nil_of_known (limit : Nat) (provider : Provider)
    (hknown : ∀ i ∈ connected.map (·.id), i ≠ "" → i ∈ devices saved) :
    (place connected saved limit provider).newcomers = [] := by
  rw [List.eq_nil_iff_forall_not_mem]
  intro d hd
  obtain ⟨hin, hne, hout⟩ := mem_ids_newcomers (List.mem_map_of_mem hd)
  exact hout (hknown d.id hin hne)

section Pass
variable (options : PassOptions)

theorem slots_runPass_of_newcomers_nil
    (hnone : (place connected saved options.maxSlots provider).newcomers = []) :
    (runPass connected saved provider options).slots = colorAll options.overflow
      (realign (place connected saved options.maxSlots provider).slots saved) := by
  simp [runPass, settle, Placement.HasNewcomer, hnone]

theorem runPass_of_newcomers_nil (h : WellFormed options.maxSlots saved)
    (hnone : (place connected saved options.maxSlots provider).newcomers = []) :
    runPass connected saved provider options =
      { slots := colorAll options.overflow saved
        newDevice := false
        persist := false
        asked := [] } := by
  have hfresh : realign (place connected saved options.maxSlots provider).slots saved = saved := by
    apply realign_eq_self h
    intro e he
    rw [slots_place_of_newcomers_nil h hnone, mem_sort] at he
    exact mem_of_mem_known he
  simp [runPass, settle, Placement.HasNewcomer, Placement.asked, hnone, hfresh]

theorem runPass_of_newcomers_ne_nil
    (hsome : (place connected saved options.maxSlots provider).newcomers ≠ []) :
    runPass connected saved provider options =
      { slots := colorAll options.overflow
          (compact (place connected saved options.maxSlots provider).slots)
        newDevice := true
        persist := true
        asked := (place connected saved options.maxSlots provider).asked } := by
  simp [runPass, settle, Placement.HasNewcomer, hsome]

/-- A pass over a sound table makes a sound table. -/
theorem wellFormed_runPass (h : WellFormed options.maxSlots saved) (connected : List Device)
    (provider : Provider) :
    WellFormed options.maxSlots (runPass connected saved provider options).slots := by
  by_cases hnew : (place connected saved options.maxSlots provider).newcomers = []
  · rw [runPass_of_newcomers_nil options h hnew]
    exact wellFormed_colorAll h _
  · rw [runPass_of_newcomers_ne_nil options hnew]
    exact wellFormed_colorAll (wellFormed_compact (wellFormed_place _ _ _ _)) _

theorem mem_devices_runPass (h : WellFormed options.maxSlots saved) {i : String}
    (hi : i ∈ devices (runPass connected saved provider options).slots) :
    i ∈ devices saved ∨ i ∈ connected.map (·.id) := by
  by_cases hnew : (place connected saved options.maxSlots provider).newcomers = []
  · rw [runPass_of_newcomers_nil options h hnew, devices_colorAll] at hi
    exact .inl hi
  · rw [runPass_of_newcomers_ne_nil options hnew, devices_colorAll,
      (devices_compact_perm _).mem_iff] at hi
    exact .inr (mem_connected_of_mem_place hi).1

end Pass

/-! ## The order of the players -/

/-- Who has a slot in both tables stands no later in the second one, and in the same order. -/
def KeepsOrder (t u : List Slot) : Prop :=
  ∀ x ∈ t, ∀ x' ∈ u, x'.device = x.device →
    x'.index ≤ x.index ∧
      ∀ y ∈ t, ∀ y' ∈ u, y'.device = y.device → (x'.index < y'.index ↔ x.index < y.index)

theorem keepsOrder_refl (h : WellFormed limit table) : KeepsOrder table table := by
  intro x hx x' hx' hd
  have hxx : x' = x := h.eq_of_device_eq hx' hx hd
  refine ⟨Nat.le_of_eq (by rw [hxx]), ?_⟩
  intro y hy y' hy' hd'
  rw [hxx, h.eq_of_device_eq hy' hy hd']

theorem KeepsOrder.colorAll {t u : List Slot} (h : KeepsOrder t u) (overflow : Overflow) :
    KeepsOrder t (colorAll overflow u) := by
  intro x hx x' hx' hd
  obtain ⟨v, hv, rfl⟩ := List.mem_map.1 hx'
  obtain ⟨hle, hlt⟩ := h x hx v hv hd
  refine ⟨hle, ?_⟩
  intro y hy y' hy' hd'
  obtain ⟨w, hw, rfl⟩ := List.mem_map.1 hy'
  exact hlt y hy w hw hd'

/-- The new position of a known device is its place in the fresh placement. -/
theorem exists_place_of_mem_compact (h : WellFormed limit saved) {x x' : Slot} (hx : x ∈ saved)
    (hx' : x' ∈ compact (place connected saved limit provider).slots)
    (hd : x'.device = x.device) :
    (place connected saved limit provider).slots[x'.index]? = some x := by
  have hfresh := wellFormed_place connected saved limit provider
  obtain ⟨p, hp⟩ := List.getElem?_of_mem hx'
  rw [getElem?_compact hfresh.ascending, Option.map_eq_some_iff] at hp
  obtain ⟨f, hf, rfl⟩ := hp
  have hfmem : f ∈ (place connected saved limit provider).slots := List.mem_of_getElem? hf
  have hdev : f.device = x.device := hd
  -- the device has a saved entry, so it is no newcomer
  have hknown : f.device ∈ devices (known connected saved) := by
    have hin := (devices_place_perm connected saved limit provider).mem_iff.1
      (List.mem_map_of_mem hfmem)
    rcases List.mem_append.1 hin with hin | hin
    · exact ((List.take_sublist _ _).map _).subset hin
    · exact absurd (hdev ▸ List.mem_map_of_mem hx) (mem_ids_newcomers hin).2.2
  obtain ⟨e, he, hef⟩ := List.mem_map.1 hknown
  have hex : e = x := h.eq_of_device_eq (mem_of_mem_known he) hx (hef.trans hdev)
  have hfx : f = x :=
    hfresh.eq_of_device_eq hfmem (hex ▸ known_subset_place h he) hdev
  rw [← hfx]
  exact hf

section Pass
variable (options : PassOptions)

/-- Who keeps a slot in a pass moves up at most, and past nobody. -/
theorem keepsOrder_runPass (h : WellFormed options.maxSlots saved) (connected : List Device)
    (provider : Provider) : KeepsOrder saved (runPass connected saved provider options).slots := by
  by_cases hnew : (place connected saved options.maxSlots provider).newcomers = []
  · rw [runPass_of_newcomers_nil options h hnew]
    exact (keepsOrder_refl h).colorAll _
  · rw [runPass_of_newcomers_ne_nil options hnew]
    refine KeepsOrder.colorAll ?_ _
    have hfresh := wellFormed_place connected saved options.maxSlots provider
    intro x hx x' hx' hd
    have hp := exists_place_of_mem_compact h hx hx' hd
    refine ⟨hfresh.place_le_index hp, ?_⟩
    intro y hy y' hy' hd'
    exact hfresh.place_lt_iff hp (exists_place_of_mem_compact h hy hy' hd')

/-! ## Who is left out -/

theorem devices_runPass_of_newcomers_ne_nil (h : WellFormed options.maxSlots saved)
    (hsome : (place connected saved options.maxSlots provider).newcomers ≠ []) :
    (devices (runPass connected saved provider options).slots).Perm
      (devices (known connected saved)
        ++ (place connected saved options.maxSlots provider).newcomers.map (·.id)) := by
  rw [runPass_of_newcomers_ne_nil options hsome, devices_colorAll,
    ← known_take_limit h connected]
  exact (devices_compact_perm _).trans (devices_place_perm _ _ _ _)

theorem mem_runPass_of_known (h : WellFormed options.maxSlots saved) (provider : Provider)
    {i : String} (hi : i ∈ connected.map (·.id)) (hne : i ≠ "") (hin : i ∈ devices saved) :
    i ∈ devices (runPass connected saved provider options).slots := by
  by_cases hnew : (place connected saved options.maxSlots provider).newcomers = []
  · rw [runPass_of_newcomers_nil options h hnew, devices_colorAll]
    exact hin
  · rw [(devices_runPass_of_newcomers_ne_nil options h hnew).mem_iff, List.mem_append]
    exact .inl (mem_devices_known.2 ⟨hi, hne, hin⟩)

theorem mem_runPass_of_newcomer (h : WellFormed options.maxSlots saved) {i : String}
    (hi : i ∈ (place connected saved options.maxSlots provider).newcomers.map (·.id)) :
    i ∈ devices (runPass connected saved provider options).slots := by
  have hnew : (place connected saved options.maxSlots provider).newcomers ≠ [] := by
    rintro hnil
    rw [hnil] at hi
    cases hi
  rw [(devices_runPass_of_newcomers_ne_nil options h hnew).mem_iff, List.mem_append]
  exact .inr hi

/-- An unknown device is cut off only where the known ones and the newcomers use all positions. -/
theorem length_known_add_newcomers (h : WellFormed limit saved) {i : String}
    (hi : i ∈ (unknown connected saved).map (·.id))
    (hout : i ∉ (place connected saved limit provider).newcomers.map (·.id)) :
    (known connected saved).length + (place connected saved limit provider).newcomers.length
      = limit := by
  have hknown := (spread_known h connected).length_le
  rw [newcomers_place_of_wellFormed h] at hout ⊢
  rw [List.length_take]
  by_contra hne
  have hall : (unknown connected saved).length ≤ limit - (known connected saved).length := by omega
  rw [List.take_of_length_le hall] at hout
  exact hout hi

theorem runPass_full (h : WellFormed options.maxSlots saved)
    (hfull : (known connected saved).length
      + (place connected saved options.maxSlots provider).newcomers.length = options.maxSlots) :
    (runPass connected saved provider options).slots.length = options.maxSlots ∧
      ∀ j ∈ devices (runPass connected saved provider options).slots,
        j ∈ connected.map (·.id) := by
  by_cases hnew : (place connected saved options.maxSlots provider).newcomers = []
  · -- the known devices alone use all positions, so nobody else is in the saved table
    have hsub : (devices (known connected saved)).Subperm (devices saved) :=
      List.subperm_of_subset (devices_known_nodup _ _) fun j hj => (mem_devices_known.1 hj).2.2
    have hsaved := h.spread.length_le
    rw [hnew, List.length_nil] at hfull
    have hperm := hsub.perm_of_length_le (by rw [List.length_map, List.length_map]; omega)
    have hlen := hperm.length_eq
    rw [List.length_map, List.length_map] at hlen
    rw [runPass_of_newcomers_nil options h hnew]
    refine ⟨by rw [colorAll, List.length_map]; omega, ?_⟩
    intro j hj
    rw [devices_colorAll, ← hperm.mem_iff] at hj
    exact (mem_devices_known.1 hj).1
  · have hperm := devices_runPass_of_newcomers_ne_nil options h hnew
    have hlen := hperm.length_eq
    rw [List.length_map, List.length_append, List.length_map, List.length_map] at hlen
    refine ⟨by omega, ?_⟩
    intro j hj
    rw [hperm.mem_iff, List.mem_append] at hj
    rcases hj with hj | hj
    · exact (mem_devices_known.1 hj).1
    · exact (mem_ids_newcomers hj).1

/-- A connected device gets no slot only if all positions are held by connected devices. -/
theorem mem_runPass_or_full (h : WellFormed options.maxSlots saved) (provider : Provider)
    {i : String} (hi : i ∈ connected.map (·.id)) (hne : i ≠ "") :
    i ∈ devices (runPass connected saved provider options).slots ∨
      ((runPass connected saved provider options).slots.length = options.maxSlots ∧
        ∀ j ∈ devices (runPass connected saved provider options).slots,
          j ∈ connected.map (·.id)) := by
  by_cases hin : i ∈ devices saved
  · exact .inl (mem_runPass_of_known options h provider hi hne hin)
  · by_cases hnew : i ∈ (place connected saved options.maxSlots provider).newcomers.map (·.id)
    · exact .inl (mem_runPass_of_newcomer options h hnew)
    · have hunknown : i ∈ (unknown connected saved).map (·.id) := mem_ids_unknown.2 ⟨hi, hne, hin⟩
      exact .inr (runPass_full options h (length_known_add_newcomers h hunknown hnew))

end Pass

end PlayerSlots.Slot
