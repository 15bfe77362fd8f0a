import Mathlib.Logic.Relation
import PlayerSlots.Proofs.Slot.Arrival

/-! # Placement of anything over anything

Nothing is assumed of the connected devices and of the saved list: ids can be missing or repeated,
positions out of range or shared.

* `length_place`: there are as many slots as ids that count, as far as there are positions.
* `binding_of_mem_place`: a device with a saved entry gets the binding of the first one.
* `all_known_of_newcomer`: a newcomer gets a slot only when all devices with an entry have one.
* `Omits`, `place_of_omits`: the parts of the input that make no difference.
* `place_sound_on_any_input`: the main statement.
-/

namespace PlayerSlots.Slot
set_option autoImplicit false

variable {limit : Nat} {saved : List Slot} {connected : List Device} {provider : Provider}

/-! ## How many slots there are -/

theorem length_present (connected : List Device) :
    (present connected).length = (validIds connected).card := by
  have hset : ((present connected).map (·.id)).toFinset = validIds connected := by
    ext i
    rw [List.mem_toFinset, mem_ids_present, mem_validIds]
  rw [← hset, List.toFinset_card_of_nodup (ids_present_nodup connected), List.length_map]

theorem length_known_add_unknown (connected : List Device) (saved : List Slot) :
    (known connected saved).length + (unknown connected saved).length
      = (present connected).length := by
  have hsplit := List.length_eq_countP_add_countP (fun d => (saved? saved d).isSome)
    (l := present connected)
  rw [known, unknown, byId, List.length_mergeSort, List.length_filterMap_eq_countP,
    ← List.countP_eq_length_filter, hsplit]
  congr 1
  exact List.countP_congr fun d _ => by simp

theorem length_place (connected : List Device) (saved : List Slot) (limit : Nat)
    (provider : Provider) :
    (place connected saved limit provider).slots.length
      = min (validIds connected).card limit := by
  have hlen := (devices_place_perm connected saved limit provider).length_eq
  have hseated := congrArg List.length (occupants_seated connected saved limit)
  have hall := length_known_add_unknown connected saved
  rw [length_present] at hall
  simp only [List.length_map, List.length_append, List.length_take, newcomers_place] at hlen hseated
  omega

/-! ## Who gets a slot -/

theorem ofDevice?_of_mem_known {e : Slot} (he : e ∈ known connected saved) :
    ofDevice? saved e.device = some e := by
  obtain ⟨d, -, hd⟩ := List.mem_filterMap.1 he
  rwa [(mem_of_ofDevice? hd).2]

/-- A device with a saved entry gets the binding of the first one. -/
theorem binding_of_mem_place {y e : Slot} (hy : y ∈ (place connected saved limit provider).slots)
    (he : ofDevice? saved y.device = some e) : y.binding = e.binding := by
  have hmem := (occupants_place_perm connected saved limit provider).subset
    (List.mem_map_of_mem hy)
  obtain ⟨x, hx, hxy⟩ := List.mem_map.1 hmem
  obtain ⟨hdevice, hbinding⟩ := Prod.mk.inj hxy
  rcases List.mem_append.1 hx with hx | hx
  · have hfirst := ofDevice?_of_mem_known (List.mem_of_mem_take hx)
    rw [show x.device = y.device from hdevice, he] at hfirst
    cases hfirst
    exact hbinding.symm
  · -- a newcomer has no saved entry
    obtain ⟨d, hd, rfl⟩ := List.mem_map.1 hx
    have hout := (mem_ids_newcomers (List.mem_map_of_mem hd)).2.2
    have hin : y.device ∈ devices saved := (isSome_ofDevice? saved _).1 (by rw [he]; rfl)
    rw [← show d.id = y.device from hdevice] at hin
    exact absurd hin hout

/-- A device without a saved entry gets a slot only when all devices with one have got theirs. -/
theorem all_known_of_newcomer {y : Slot} (hy : y ∈ (place connected saved limit provider).slots)
    (hnew : y.device ∉ devices saved) {i : String} (hi : i ∈ validIds connected)
    (hsaved : i ∈ devices saved) : i ∈ devices (place connected saved limit provider).slots := by
  have hperm := devices_place_perm connected saved limit provider
  have hy' := hperm.subset (List.mem_map_of_mem hy)
  have hnewcomer := (List.mem_append.1 hy').resolve_left fun hk =>
    hnew (mem_saved_of_mem_take_known hk)
  -- there is room for a newcomer, so no known device was left over
  have hroom : (known connected saved).length ≤ limit := by
    have hseated := congrArg List.length (occupants_seated connected saved limit)
    have hpos := List.length_pos_of_mem hnewcomer
    simp only [List.length_map, List.length_take, newcomers_place] at hseated hpos
    omega
  obtain ⟨hid, hne⟩ := mem_validIds.1 hi
  refine hperm.mem_iff.2 (List.mem_append_left _ ?_)
  rw [List.take_of_length_le hroom]
  exact mem_devices_known.2 ⟨hid, hne, hsaved⟩

/-! ## What makes no difference -/

/-- The placement depends on the devices that count and on their saved entries. -/
theorem place_congr {connected' : List Device} {saved' : List Slot}
    (hpresent : present connected' = present connected)
    (hsaved : ∀ d ∈ present connected, saved? saved' d = saved? saved d) (limit : Nat)
    (provider : Provider) :
    place connected' saved' limit provider = place connected saved limit provider := by
  have hknown := List.filterMap_congr hsaved
  have hunknown : (present connected).filter (fun d => (saved? saved' d).isNone)
      = (present connected).filter fun d => (saved? saved d).isNone :=
    List.filter_congr fun d hd => by rw [hsaved d hd]
  rw [place, place, hpresent, hknown, hunknown]

/-- The inputs of a placement, with one device or one saved entry left out that does not count. -/
inductive Omits : List Device × List Slot → List Device × List Slot → Prop
  | blankDevice (before after : List Device) (d : Device) (saved : List Slot) (h : d.id = "") :
      Omits (before ++ d :: after, saved) (before ++ after, saved)
  | repeatedDevice (before after : List Device) (d : Device) (saved : List Slot)
      (h : d.id ∈ before.map (·.id)) :
      Omits (before ++ d :: after, saved) (before ++ after, saved)
  | blankEntry (connected : List Device) (before after : List Slot) (e : Slot)
      (h : e.device = "") :
      Omits (connected, before ++ e :: after) (connected, before ++ after)
  | repeatedEntry (connected : List Device) (before after : List Slot) (e : Slot)
      (h : e.device ∈ devices before) :
      Omits (connected, before ++ e :: after) (connected, before ++ after)
  | absentEntry (connected : List Device) (before after : List Slot) (e : Slot)
      (h : e.device ∉ connected.map (·.id)) :
      Omits (connected, before ++ e :: after) (connected, before ++ after)

theorem present_of_blank (before after : List Device) {d : Device} (h : d.id = "") :
    present (before ++ d :: after) = present (before ++ after) := by
  rw [present, present, List.filter_append, List.filter_append,
    List.filter_cons_of_neg (by simp [h])]

theorem present_of_repeated {before : List Device} (after : List Device) {d : Device}
    (h : d.id ∈ before.map (·.id)) : present (before ++ d :: after) = present (before ++ after) := by
  rw [present_eq, present_eq, firstPer_append_cons Device.id h]

/-- An entry of another device, or one behind another entry of the device, is not found. -/
theorem saved?_append_cons {before : List Slot} (after : List Slot) {e : Slot} {d : Device}
    (h : e.device = d.id → e.device ∈ devices before) :
    saved? (before ++ e :: after) d = saved? (before ++ after) d := by
  rw [saved?, saved?, ofDevice?, ofDevice?, List.find?_append, List.find?_append]
  by_cases he : e.device = d.id
  · have hfound : (before.find? (·.device == d.id)).isSome = true :=
      (isSome_ofDevice? before d.id).2 (he ▸ h he)
    rw [Option.or_of_isSome hfound, Option.or_of_isSome hfound]
  · rw [List.find?_cons_of_neg (by simpa using he)]

theorem place_of_omits {input input' : List Device × List Slot} (h : Omits input input')
    (limit : Nat) (provider : Provider) :
    place input'.1 input'.2 limit provider = place input.1 input.2 limit provider := by
  cases h with
  | blankDevice before after d saved hblank =>
    exact place_congr (present_of_blank before after hblank).symm (fun _ _ => rfl) limit provider
  | repeatedDevice before after d saved hrepeated =>
    exact place_congr (present_of_repeated after hrepeated).symm (fun _ _ => rfl) limit provider
  | blankEntry connected before after e hblank =>
    refine place_congr rfl (fun d hd => (saved?_append_cons after fun he => ?_).symm) limit provider
    exact absurd (he.symm.trans hblank) (mem_ids_present.1 (List.mem_map_of_mem hd)).2
  | repeatedEntry connected before after e hrepeated =>
    exact place_congr rfl (fun d _ => (saved?_append_cons after fun _ => hrepeated).symm) limit
      provider
  | absentEntry connected before after e habsent =>
    refine place_congr rfl (fun d hd => (saved?_append_cons after fun he => ?_).symm) limit provider
    exact absurd (he ▸ (mem_ids_present.1 (List.mem_map_of_mem hd)).1) habsent

theorem place_of_omits_many {input input' : List Device × List Slot}
    (h : Relation.ReflTransGen Omits input input') (limit : Nat) (provider : Provider) :
    place input'.1 input'.2 limit provider = place input.1 input.2 limit provider := by
  induction h with
  | refl => rfl
  | tail _ hstep ih => rw [place_of_omits hstep, ih]

/-- The saved entries that count: of the connected devices, the first for each. -/
def wanted (connected : List Device) (saved : List Slot) : List Slot :=
  (firstPer (·.device) saved).filter (·.device ∈ validIds connected)

theorem saved?_wanted {d : Device} (hd : d ∈ present connected) :
    saved? (wanted connected saved) d = saved? saved d := by
  have hid : d.id ∈ validIds connected :=
    mem_validIds.2 (mem_ids_present.1 (List.mem_map_of_mem hd))
  have hsearch : (fun e : Slot =>
      decide (decide (e.device ∈ validIds connected) = true ∧ (e.device == d.id) = true))
        = fun e => decide (e.device = d.id) := by
    funext e
    by_cases he : e.device = d.id <;> simp [he, hid]
  rw [saved?, ofDevice?, wanted, List.find?_filter, hsearch, find?_firstPer Slot.device saved d.id]
  rfl

/-- All that makes no difference can be left out at once. -/
theorem place_present_wanted (connected : List Device) (saved : List Slot) (limit : Nat)
    (provider : Provider) :
    place (present connected) (wanted connected saved) limit provider
      = place connected saved limit provider := by
  refine place_congr ?_ (fun d hd => saved?_wanted hd) limit provider
  exact present_eq_self (fun i hi => (mem_ids_present.1 hi).2) (ids_present_nodup connected)

/-- Whatever is connected and whatever was saved, the placement is a sound table of connected
devices, and holds as many of them as there are positions. Devices with a saved entry come first and
get the binding of the first one. Devices without an id and later ones under the same id can be left
out, as well as entries without an id, later ones of the same device, and those of devices that are
not connected, some of them or all. -/
theorem place_sound_on_any_input (connected : List Device) (saved : List Slot) (limit : Nat)
    (provider : Provider) :
    let placement := place connected saved limit provider
    WellFormed limit placement.slots ∧
    (∀ y ∈ placement.slots, y.device ∈ validIds connected) ∧
    placement.slots.length = min (validIds connected).card limit ∧
    (∀ y ∈ placement.slots, y.device ∉ devices saved →
      ∀ i ∈ validIds connected, i ∈ devices saved → i ∈ devices placement.slots) ∧
    (∀ y ∈ placement.slots, ∀ e, ofDevice? saved y.device = some e → y.binding = e.binding) ∧
    (∀ connected' saved', Relation.ReflTransGen Omits (connected, saved) (connected', saved') →
      place connected' saved' limit provider = placement) ∧
    place (present connected) (wanted connected saved) limit provider = placement := by
  refine ⟨wellFormed_place .., fun y hy => ?_, length_place .., fun y hy hnew i hi hsaved => ?_,
    fun y hy e he => binding_of_mem_place hy he, fun connected' saved' homits => ?_,
    place_present_wanted ..⟩
  · exact mem_validIds.2 (mem_connected_of_mem_place (List.mem_map_of_mem hy))
  · exact all_known_of_newcomer hy hnew hi hsaved
  · exact place_of_omits_many homits limit provider

/-- A device whose position is out of range takes the one that the next device wants, which moves on
in turn; of two newcomers one finds a position. One of each kind is left out. -/
theorem place_sound_on_any_input_cascade :
    let pad : Binding := .keyboard ⟨.pro, .empty⟩
    let single : Binding := .keyboard ⟨.handheld, .empty⟩
    let provider : Provider := fun _ => .ok pad
    let connected : List Device :=
      [⟨"b", "Pad"⟩, ⟨"", "Pad"⟩, ⟨"a", "Pad"⟩, ⟨"b", "Late"⟩, ⟨"z", "Pad"⟩, ⟨"y", "Pad"⟩]
    let saved : List Slot :=
      [⟨0, "", pad⟩, ⟨7, "b", single⟩, ⟨1, "b", pad⟩, ⟨0, "a", pad⟩, ⟨1, "gone", pad⟩]
    let slots : List Slot := [⟨0, "b", single⟩, ⟨1, "a", pad⟩, ⟨2, "y", pad⟩]
    (place connected saved 3 provider).slots = slots ∧ WellFormed 3 slots ∧
      slots.length = min (validIds connected).card 3 ∧
      (∀ y ∈ slots, y.device ∈ validIds connected) ∧
      "y" ∉ devices saved ∧ "a" ∈ validIds connected ∧ "a" ∈ devices saved ∧
      "a" ∈ devices slots ∧
      (∃ e, ofDevice? saved "b" = some e ∧ single = e.binding) ∧
      (place [⟨"b", "Pad"⟩, ⟨"a", "Pad"⟩, ⟨"z", "Pad"⟩, ⟨"y", "Pad"⟩]
        [⟨7, "b", single⟩, ⟨0, "a", pad⟩] 3 provider).slots = slots := by
  intro pad single provider connected saved slots
  have hslots : (place connected saved 3 provider).slots = slots := by cbv
  obtain ⟨hsound, hconnected, hlength, hknown, hbinding, homits, -⟩ :=
    place_sound_on_any_input connected saved 3 provider
  rw [hslots] at hsound hconnected hlength hknown hbinding
  have hunseen : "y" ∉ devices saved := by simp [saved]
  have hvalid : "a" ∈ validIds connected := mem_validIds.2 (by simp [connected])
  have hentry : "a" ∈ devices saved := by simp [saved]
  have hfirst : ofDevice? saved "b" = some ⟨7, "b", single⟩ := by cbv
  have hpath : Relation.ReflTransGen Omits (connected, saved)
      ([⟨"b", "Pad"⟩, ⟨"a", "Pad"⟩, ⟨"z", "Pad"⟩, ⟨"y", "Pad"⟩],
        [⟨7, "b", single⟩, ⟨0, "a", pad⟩]) := by
    refine .head (.blankDevice [⟨"b", "Pad"⟩] _ _ _ rfl) ?_
    refine .head (.repeatedDevice [⟨"b", "Pad"⟩, ⟨"a", "Pad"⟩] _ _ _ (by simp)) ?_
    refine .head (.blankEntry _ [] _ _ rfl) ?_
    refine .head (.repeatedEntry _ [⟨7, "b", single⟩] _ _ (by simp)) ?_
    exact .single (.absentEntry _ [⟨7, "b", single⟩, ⟨0, "a", pad⟩] [] _ (by simp))
  have homitted := congrArg Placement.slots (homits _ _ hpath)
  rw [hslots] at homitted
  exact ⟨hslots, hsound, hlength, hconnected, hunseen, hvalid, hentry,
    hknown ⟨2, "y", pad⟩ (by simp [slots]) hunseen "a" hvalid hentry,
    ⟨_, hfirst, hbinding ⟨0, "b", single⟩ (by simp [slots]) _ hfirst⟩, homitted⟩

end PlayerSlots.Slot
