import Mathlib.Data.List.Forall2
import PlayerSlots.Proofs.Slot.Arrival

/-! # Names choose bindings and nothing else

A pass reads the name of a device only to ask the provider for a binding, and it asks only for the
devices without a saved entry that it gives a slot. So neither the names nor the answers have a say
in who gets which position, whatever was saved.

* `known_eq_of_ids`, `ids_newcomers_eq_of_ids`: who is placed depends on the ids.
* `issued`: a slot with the binding that its device gets from the provider.
* `slots_runPass_eq_map`: other names and another provider make the same table with other bindings
  issued.
* `runPass_eq_of_asked`, `runPass_failing`: which answers matter, and what an error changes.
* `placement_ignores_names`: what this means for the outcome of a pass.
-/

namespace PlayerSlots
set_option autoImplicit false

/-- The provider with an error in place of its answer for one name. -/
def Provider.failing (provider : Provider) (name : String) (error : SlotError) : Provider :=
  fun n => if n = name then .error error else provider n

theorem Provider.binding_failing (provider : Provider) (name : String) (error : SlotError)
    (n : String) : (provider.failing name error).binding n
      = if n = name then Binding.generic else provider.binding n := by
  by_cases h : n = name <;> simp [Provider.binding, Provider.failing, h]

namespace Slot

variable {limit : Nat} {saved : List Slot} {connected connected' : List Device}
  {provider provider' : Provider}

/-! ## Who is placed -/

section SameIds
variable (hids : connected'.map Device.id = connected.map Device.id)
include hids

theorem ids_present_eq_of_ids :
    (present connected').map (·.id) = (present connected).map (·.id) := by
  rw [present_eq, present_eq]
  have hkeys : ∀ ds : List Device, ((firstPer Device.id ds).filter (·.id ≠ "")).map (·.id)
      = (firstPer id (ds.map Device.id)).filter (· ≠ "") := by
    intro ds
    rw [← keys_firstPer, List.filter_map]
    rfl
  rw [hkeys, hkeys, hids]

theorem known_eq_of_ids (saved : List Slot) : known connected' saved = known connected saved := by
  have hmap : ∀ ds : List Device,
      ds.filterMap (saved? saved) = (ds.map (·.id)).filterMap (ofDevice? saved) := by
    intro ds
    rw [List.filterMap_map]
    rfl
  rw [known, known, hmap, hmap, ids_present_eq_of_ids hids]

theorem ids_unknown_eq_of_ids (saved : List Slot) :
    (unknown connected' saved).map (·.id) = (unknown connected saved).map (·.id) := by
  rw [ids_unknown_eq_sort, ids_unknown_eq_sort, validIds, validIds, hids]

theorem ids_newcomers_eq_of_ids (saved : List Slot) (limit : Nat) (provider provider' : Provider) :
    (place connected' saved limit provider').newcomers.map (·.id)
      = (place connected saved limit provider).newcomers.map (·.id) := by
  rw [newcomers_place, newcomers_place, List.map_take, List.map_take, ids_unknown_eq_of_ids hids,
    seated, seated, known_eq_of_ids hids]

theorem newcomers_eq_nil_iff_of_ids (saved : List Slot) (limit : Nat)
    (provider provider' : Provider) :
    (place connected' saved limit provider').newcomers = [] ↔
      (place connected saved limit provider).newcomers = [] := by
  rw [← List.map_eq_nil_iff (f := Device.id),
    ids_newcomers_eq_of_ids hids saved limit provider provider', List.map_eq_nil_iff]

end SameIds

/-! ## Issued bindings -/

/-- The slot of an unknown device with the binding that the provider supplies for its name; any
other slot as it is. -/
def issued (connected : List Device) (saved : List Slot) (provider : Provider) (x : Slot) : Slot :=
  { x with
    binding := match (unknown connected saved).find? (·.id == x.device) with
      | some d => provider.binding d.name
      | none => x.binding }

theorem index_issued (x : Slot) : (issued connected saved provider x).index = x.index := rfl

theorem issued_of_known {x : Slot} (h : x.device ∈ devices saved) :
    issued connected saved provider x = x := by
  have hnone : (unknown connected saved).find? (·.id == x.device) = none := by
    rw [List.find?_eq_none]
    intro d hd hid
    exact (mem_unknown_iff.1 hd).2 (beq_iff_eq.1 hid ▸ h)
  rw [issued, hnone]

theorem issued_of_unknown {x : Slot} {d : Device} (hd : d ∈ unknown connected saved)
    (hid : d.id = x.device) :
    issued connected saved provider x = { x with binding := provider.binding d.name } := by
  have hfind : (unknown connected saved).find? (·.id == x.device) = some d :=
    (find?_key_eq_some_iff Device.id (ids_unknown_nodup connected saved)).2 ⟨hd, hid⟩
  rw [issued, hfind]

theorem map_issued_of_known {table : List Slot} (h : ∀ i ∈ devices table, i ∈ devices saved) :
    table.map (issued connected saved provider) = table := by
  calc table.map (issued connected saved provider)
      = table.map id :=
        List.map_congr_left fun x hx => issued_of_known (h x.device (List.mem_map_of_mem hx))
    _ = table := List.map_id table

/-- Issuing goes by the device, so it does not matter when positions are given. -/
theorem numberFrom_map_issued (start : Nat) (table : List Slot) :
    numberFrom start (table.map (issued connected saved provider))
      = (numberFrom start table).map (issued connected saved provider) := by
  induction table generalizing start with
  | nil => rfl
  | cons x table ih =>
    rw [List.map_cons, numberFrom, numberFrom, List.map_cons, ih]
    rfl

theorem compact_map_issued (table : List Slot) :
    compact (table.map (issued connected saved provider))
      = (compact table).map (issued connected saved provider) := by
  rw [compact, sort_map index_issued, numberFrom_map_issued, compact]

/-- The induction is over the devices. Each takes the next free position under either name. -/
theorem arrivals_map_issued (limit : Nat) (taken : List Nat) {ds ds' : List Device}
    (hids : ds'.map Device.id = ds.map Device.id) (hds' : ∀ d ∈ ds', d ∈ unknown connected' saved) :
    arrivals limit provider' taken ds'
      = (arrivals limit provider taken ds).map (issued connected' saved provider') := by
  unfold arrivals
  generalize freeBelow limit taken = free
  induction ds generalizing ds' free with
  | nil =>
    rw [List.map_nil, List.map_eq_nil_iff] at hids
    simp [hids]
  | cons d ds ih =>
    cases ds' with
    | nil => cases hids
    | cons d' ds' =>
      obtain ⟨hid, hrest⟩ := List.cons.inj hids
      cases free with
      | nil => rfl
      | cons i free =>
        have hhead : issued connected' saved provider' ⟨i, d.id, provider.binding d.name⟩
            = ⟨i, d'.id, provider'.binding d'.name⟩ := by
          rw [issued_of_unknown (hds' d' (List.mem_cons_self ..)) hid, hid]
        have htail := ih hrest (fun e he => hds' e (List.mem_cons_of_mem d' he)) free
        rw [List.zip_cons_cons, List.zip_cons_cons, List.map_cons, List.map_cons, List.map_cons,
          htail, hhead]

/-! ## The placement under other names -/

theorem slots_place_eq_map (hids : connected'.map Device.id = connected.map Device.id)
    (saved : List Slot) (limit : Nat) (provider provider' : Provider) :
    (place connected' saved limit provider').slots
      = (place connected saved limit provider).slots.map (issued connected' saved provider') := by
  have hknown := known_eq_of_ids hids saved
  have hseated : ∀ i ∈ devices (seated connected saved limit), i ∈ devices saved := by
    intro i hi
    rw [devices_of_occupants (occupants_seated connected saved limit)] at hi
    exact mem_saved_of_mem_take_known hi
  rw [slots_place_eq_append, slots_place_eq_append, ← sort_map index_issued, List.map_append,
    map_issued_of_known hseated, seated, seated, hknown,
    ← arrivals_map_issued _ _ (ids_newcomers_eq_of_ids hids saved limit provider provider')
      fun d hd => mem_unknown_of_mem_newcomers hd]

/-! ## The pass under other names -/

/-- Issuing sets the binding regardless of its color. -/
theorem colorAll_map_issued (overflow : Overflow) (table : List Slot) :
    (colorAll overflow table).map
        (fun x => colored overflow (issued connected saved provider x))
      = colorAll overflow (table.map (issued connected saved provider)) := by
  rw [colorAll, colorAll, List.map_map, List.map_map]
  refine List.map_congr_left fun x _ => ?_
  simp only [Function.comp_apply, colored, issued]
  cases (unknown connected saved).find? (·.id == x.device) <;> simp

section Pass
variable (options : PassOptions)

theorem newDevice_runPass_eq_of_ids (hids : connected'.map Device.id = connected.map Device.id)
    (saved : List Slot) (provider provider' : Provider) :
    (runPass connected' saved provider' options).newDevice
      = (runPass connected saved provider options).newDevice :=
  decide_eq_decide.2 (not_congr (newcomers_eq_nil_iff_of_ids hids saved _ provider provider'))

theorem persist_runPass_eq_of_ids (hids : connected'.map Device.id = connected.map Device.id)
    (saved : List Slot) (provider provider' : Provider) :
    (runPass connected' saved provider' options).persist
      = (runPass connected saved provider options).persist := by
  rw [persist_runPass, persist_runPass, newDevice_runPass_eq_of_ids options hids]

/-- Under other names and with another provider a pass makes the same table, with the bindings
issued that belong to them. -/
theorem slots_runPass_eq_map (hids : connected'.map Device.id = connected.map Device.id)
    (saved : List Slot) (provider provider' : Provider) :
    (runPass connected' saved provider' options).slots
      = (runPass connected saved provider options).slots.map fun x =>
          colored options.overflow (issued connected' saved provider' x) := by
  have hplace := slots_place_eq_map hids saved options.maxSlots provider provider'
  have hnil := newcomers_eq_nil_iff_of_ids hids saved options.maxSlots provider provider'
  by_cases hnew : (place connected saved options.maxSlots provider).newcomers = []
  · rw [slots_runPass_of_newcomers_nil options hnew,
      slots_runPass_of_newcomers_nil options (hnil.2 hnew), colorAll_map_issued, hplace]
    -- without a newcomer all devices are known, in the placement and after the exchanges
    have hfresh : ∀ i ∈ devices (place connected saved options.maxSlots provider).slots,
        i ∈ devices saved := by
      intro i hi
      rw [(devices_place_perm _ _ _ _).mem_iff, hnew, List.map_nil, List.append_nil] at hi
      exact mem_saved_of_mem_take_known hi
    have hsettled : ∀ i ∈ devices
        (realign (place connected saved options.maxSlots provider).slots saved),
        i ∈ devices saved := fun i hi =>
      (devices_perm_of_occupants (occupants_realign_perm _ saved)).mem_iff.1 hi
    rw [map_issued_of_known hfresh, map_issued_of_known hsettled]
  · rw [runPass_of_newcomers_ne_nil options hnew,
      runPass_of_newcomers_ne_nil options (mt hnil.1 hnew), colorAll_map_issued, hplace,
      compact_map_issued]

/-- A device without a saved entry gets a slot iff it is a newcomer. -/
theorem mem_devices_runPass_iff_of_not_saved {i : String} (hout : i ∉ devices saved) :
    i ∈ devices (runPass connected saved provider options).slots ↔
      i ∈ (place connected saved options.maxSlots provider).newcomers.map (·.id) := by
  by_cases hnew : (place connected saved options.maxSlots provider).newcomers = []
  · rw [slots_runPass_of_newcomers_nil options hnew, devices_colorAll,
      (devices_perm_of_occupants (occupants_realign_perm _ saved)).mem_iff, hnew]
    exact iff_of_false hout List.not_mem_nil
  · rw [devices_runPass_eq_place options hnew, (devices_place_perm _ _ _ _).mem_iff,
      List.mem_append, or_iff_right]
    exact fun hi => hout (mem_saved_of_mem_take_known hi)

theorem exists_newcomer_of_mem_runPass {x : Slot}
    (hx : x ∈ (runPass connected saved provider options).slots) (hout : x.device ∉ devices saved) :
    ∃ d ∈ (place connected saved options.maxSlots provider).newcomers, d.id = x.device :=
  List.mem_map.1 ((mem_devices_runPass_iff_of_not_saved options hout).1 (List.mem_map_of_mem hx))

/-- Every slot of the outcome has the binding that belongs to it already, in its color. -/
theorem colored_issued_of_mem_runPass {x : Slot}
    (hx : x ∈ (runPass connected saved provider options).slots) :
    colored options.overflow (issued connected saved provider x) = x := by
  have hmap := slots_runPass_eq_map options (rfl : connected.map Device.id = _) saved provider
    provider
  exact List.map_inj_left.1 (hmap.symm.trans (List.map_id _).symm) x hx

end Pass

/-- The devices that the provider is asked for, in the order in which it is asked. -/
theorem ids_newcomers_ascending (connected : List Device) (saved : List Slot) (limit : Nat)
    (provider : Provider) :
    ((place connected saved limit provider).newcomers.map (·.id)).Pairwise (· < ·) := by
  rw [newcomers_place, List.map_take, ids_unknown_eq_sort]
  exact (Finset.sortedLT_sort _).pairwise.sublist (List.take_sublist _ _)

theorem mem_newcomers_iff (options : PassOptions) {d : Device} :
    d ∈ (place connected saved options.maxSlots provider).newcomers ↔
      d ∈ present connected ∧ d.id ∉ devices saved ∧
        d.id ∈ devices (runPass connected saved provider options).slots := by
  constructor
  · intro hd
    obtain ⟨hpresent, hout⟩ := mem_unknown_iff.1 (mem_unknown_of_mem_newcomers hd)
    exact ⟨hpresent, hout,
      (mem_devices_runPass_iff_of_not_saved options hout).2 (List.mem_map_of_mem hd)⟩
  · rintro ⟨hpresent, hout, hin⟩
    have hid := (mem_devices_runPass_iff_of_not_saved options hout).1 hin
    obtain ⟨e, he, hed⟩ := List.mem_map.1 hid
    have hpresent' := (mem_unknown_iff.1 (mem_unknown_of_mem_newcomers he)).1
    rwa [← List.inj_on_of_nodup_map (ids_present_nodup connected) hpresent' hpresent hed]

/-! ## Other answers -/

section Answers
variable (options : PassOptions)

/-- Another provider changes only the bindings that it issues. -/
theorem runPass_eq_map {f : Slot → Slot}
    (hissued : ∀ x ∈ (runPass connected saved provider options).slots,
      colored options.overflow (issued connected saved provider' x) = f x) :
    runPass connected saved provider' options =
      { runPass connected saved provider options with
        slots := (runPass connected saved provider options).slots.map f } := by
  have hids : connected.map Device.id = connected.map Device.id := rfl
  calc runPass connected saved provider' options
      = { slots := (runPass connected saved provider' options).slots
          newDevice := (runPass connected saved provider' options).newDevice
          persist := (runPass connected saved provider' options).persist
          asked := (runPass connected saved provider options).asked } := rfl
    _ = _ := by
      rw [slots_runPass_eq_map options hids saved provider provider',
        newDevice_runPass_eq_of_ids options hids saved provider provider',
        persist_runPass_eq_of_ids options hids saved provider provider',
        List.map_congr_left hissued]

/-- A slot of the outcome has the binding that the provider supplies for a name it was asked for,
or is that of a device with a saved entry. -/
theorem cases_of_mem_runPass {x : Slot}
    (hx : x ∈ (runPass connected saved provider options).slots) :
    (x.device ∈ devices saved ∧
      ∀ provider', colored options.overflow (issued connected saved provider' x) = x) ∨
    (x.device ∉ devices saved ∧
      ∃ d ∈ (place connected saved options.maxSlots provider).newcomers, d.id = x.device ∧
        x.binding = (provider.binding d.name).setColor (options.overflow.color? x.index) ∧
        ∀ provider', colored options.overflow (issued connected saved provider' x) =
          { x with
            binding := (provider'.binding d.name).setColor (options.overflow.color? x.index) }) := by
  have hself := colored_issued_of_mem_runPass options hx
  by_cases hin : x.device ∈ devices saved
  · refine .inl ⟨hin, fun provider' => ?_⟩
    rw [issued_of_known hin] at hself ⊢
    exact hself
  · obtain ⟨d, hd, hid⟩ := exists_newcomer_of_mem_runPass options hx hin
    have hunknown := mem_unknown_of_mem_newcomers hd
    rw [issued_of_unknown hunknown hid] at hself
    refine .inr ⟨hin, d, hd, hid, (congrArg Slot.binding hself).symm, fun provider' => ?_⟩
    rw [issued_of_unknown hunknown hid]
    rfl

/-- Only the answers to what the provider was asked matter. -/
theorem runPass_eq_of_asked
    (hasked : ∀ n ∈ (runPass connected saved provider options).asked, provider' n = provider n) :
    runPass connected saved provider' options = runPass connected saved provider options := by
  have hsame : ∀ x ∈ (runPass connected saved provider options).slots,
      colored options.overflow (issued connected saved provider' x) = id x := by
    intro x hx
    rcases cases_of_mem_runPass options hx with ⟨-, hself⟩ | ⟨-, d, hd, -, hbinding, hissued⟩
    · exact hself provider'
    · have hanswer : provider'.binding d.name = provider.binding d.name := by
        rw [Provider.binding, hasked d.name (List.mem_map_of_mem hd)]
        rfl
      rw [hissued, hanswer, ← hbinding]
      rfl
  rw [runPass_eq_map options hsame, List.map_id]

/-- An error for a name changes the bindings of the unknown devices of that name, and nothing
else. -/
theorem runPass_failing (connected : List Device) (saved : List Slot) (provider : Provider)
    (name : String) (error : SlotError) :
    runPass connected saved (provider.failing name error) options =
      { runPass connected saved provider options with
        slots := (runPass connected saved provider options).slots.map fun x =>
          if x.device ∉ devices saved ∧
              ∃ d ∈ present connected, d.id = x.device ∧ d.name = name then
            { x with binding := Binding.generic.setColor (options.overflow.color? x.index) }
          else x } := by
  refine runPass_eq_map options fun x hx => ?_
  rcases cases_of_mem_runPass options hx with ⟨hin, hself⟩ | ⟨hout, d, hd, hid, hbinding, hissued⟩
  · rw [hself, if_neg fun h => h.1 hin]
  · have hpresent := (mem_unknown_iff.1 (mem_unknown_of_mem_newcomers hd)).1
    rw [hissued, Provider.binding_failing]
    by_cases hname : d.name = name
    · rw [if_pos hname, if_pos ⟨hout, d, hpresent, hid, hname⟩]
    · rw [if_neg hname, ← hbinding, if_neg]
      rintro ⟨-, e, he, hide, hnamee⟩
      have hed : e = d := List.inj_on_of_nodup_map (ids_present_nodup connected) he hpresent
        (hide.trans hid.symm)
      exact hname (hed ▸ hnamee)

end Answers

/-- Two passes over devices with the same ids, whatever their names, the providers and the saved
list, give the same devices the same positions and report the same. Whoever has a saved entry gets
the same binding from both. The provider is asked once for each device without a saved entry that
gets a slot, in the order of the ids, and for no other; its answer is that device's binding, in the
color of the position. What it would answer to other names has no influence. An error for a name
gives those of them that have the name the generic binding instead, and changes nothing else. -/
theorem placement_ignores_names (options : PassOptions) (saved : List Slot)
    (connected connected' : List Device) (hids : connected'.map (·.id) = connected.map (·.id))
    (provider provider' : Provider) :
    let o := runPass connected saved provider options
    let o' := runPass connected' saved provider' options
    (List.Forall₂ (fun x x' => x'.index = x.index ∧ x'.device = x.device ∧
        (x.device ∈ devices saved → x'.binding = x.binding)) o.slots o'.slots ∧
      o'.newDevice = o.newDevice ∧ o'.persist = o.persist) ∧
    (∃ placed : List Device, o.asked = placed.map (·.name) ∧
      (placed.map (·.id)).Pairwise (· < ·) ∧
      (∀ d, d ∈ placed ↔
        d ∈ present connected ∧ d.id ∉ devices saved ∧ d.id ∈ devices o.slots) ∧
      ∀ x ∈ o.slots, x.device ∉ devices saved → ∃ d ∈ placed, d.id = x.device ∧
        x.binding = (provider.binding d.name).setColor (options.overflow.color? x.index)) ∧
    (∀ provider'' : Provider, (∀ n ∈ o.asked, provider'' n = provider n) →
      runPass connected saved provider'' options = o) ∧
    ∀ name error, runPass connected saved (provider.failing name error) options =
      { o with slots := o.slots.map fun x =>
          if x.device ∉ devices saved ∧
              ∃ d ∈ present connected, d.id = x.device ∧ d.name = name then
            { x with binding := Binding.generic.setColor (options.overflow.color? x.index) }
          else x } := by
  intro o o'
  refine ⟨⟨?_, newDevice_runPass_eq_of_ids options hids saved provider provider',
    persist_runPass_eq_of_ids options hids saved provider provider'⟩,
    ⟨(place connected saved options.maxSlots provider).newcomers, rfl,
      ids_newcomers_ascending connected saved _ provider, fun d => mem_newcomers_iff options, ?_⟩,
    fun provider'' hasked => runPass_eq_of_asked options hasked,
    runPass_failing options connected saved provider⟩
  · have hslots : o'.slots = _ := slots_runPass_eq_map options hids saved provider provider'
    rw [hslots, List.forall₂_map_right_iff, List.forall₂_same]
    intro x hx
    refine ⟨rfl, rfl, fun hin => ?_⟩
    have hself := colored_issued_of_mem_runPass options hx
    rw [issued_of_known hin] at hself ⊢
    rw [hself]
  · intro x hx hout
    rcases cases_of_mem_runPass options hx with ⟨hin, -⟩ | ⟨-, d, hd, hid, hbinding, -⟩
    · exact absurd hin hout
    · exact ⟨d, hd, hid, hbinding⟩

/-- Two saved entries out of range for the same position, and a provider that knows no name. -/
theorem placement_ignores_names_careless :
    let options : PassOptions := { maxSlots := 3 }
    let saved : List Slot :=
      [⟨7, "b", .keyboard ⟨.handheld, .empty⟩⟩, ⟨7, "c", .keyboard ⟨.pro, .empty⟩⟩]
    let connected : List Device :=
      [⟨"y", "Pad"⟩, ⟨"b", "Pad"⟩, ⟨"x", "Stick"⟩, ⟨"z", "Pad"⟩, ⟨"", "Pad"⟩]
    let connected' : List Device := [⟨"y", ""⟩, ⟨"b", "Old"⟩, ⟨"x", ""⟩, ⟨"z", ""⟩, ⟨"", ""⟩]
    let provider : Provider := fun _ => .ok (.keyboard ⟨.pro, .empty⟩)
    let provider' : Provider := fun _ => .error (.config "no such name")
    let provider'' : Provider := fun name => if name = "" then provider' name else provider name
    let o := runPass connected saved provider options
    let o' := runPass connected' saved provider' options
    o.slots.map (fun x => (x.index, x.device)) = [(0, "b"), (1, "x"), (2, "y")] ∧
    o.asked = ["Stick", "Pad"] ∧
    connected'.map (·.id) = connected.map (·.id) ∧
    (List.Forall₂ (fun x x' => x'.index = x.index ∧ x'.device = x.device ∧
        (x.device ∈ devices saved → x'.binding = x.binding)) o.slots o'.slots ∧
      o'.newDevice = o.newDevice ∧ o'.persist = o.persist) ∧
    (∃ placed : List Device, o.asked = placed.map (·.name) ∧
      (placed.map (·.id)).Pairwise (· < ·) ∧
      (∀ d, d ∈ placed ↔
        d ∈ present connected ∧ d.id ∉ devices saved ∧ d.id ∈ devices o.slots) ∧
      ∀ x ∈ o.slots, x.device ∉ devices saved → ∃ d ∈ placed, d.id = x.device ∧
        x.binding = (provider.binding d.name).setColor (options.overflow.color? x.index)) ∧
    (∀ n ∈ o.asked, provider'' n = provider n) ∧
    runPass connected saved provider'' options = o := by
  intro options saved connected connected' provider provider' provider'' o o'
  have hids : connected'.map (·.id) = connected.map (·.id) := rfl
  have hnames := placement_ignores_names options saved connected connected' hids provider provider'
  have hasked : o.asked = ["Stick", "Pad"] := by cbv
  have hsame : ∀ n ∈ o.asked, provider'' n = provider n := by
    intro n hn
    rw [hasked] at hn
    exact if_neg fun hempty => by simp [hempty] at hn
  exact ⟨by cbv, hasked, hids, hnames.1, hnames.2.1, hsame, hnames.2.2.1 provider'' hsame⟩

end Slot

end PlayerSlots
