import Mathlib
import PlayerSlots.Proofs.Slot.FreePositions

/-! # Where new hardware goes

A pass over a sound table that meets new hardware has one possible outcome. Known devices stand on
their own positions, the newcomers fill the lowest free ones in the order of their ids, and then all
move up until no gap is left.

* `filter_known_place`, `filter_new_place`: the order of either kind in the placement.
* `place_add_of_known`: where a known device ends up, from the gaps below it and the newcomers.
* `new_hardware_placement`: the whole outcome.
-/

namespace PlayerSlots.Slot
set_option autoImplicit false

variable {limit : Nat} {table saved : List Slot} {connected : List Device} {provider : Provider}

/-! ## The order of the placement -/

theorem mem_known_iff (h : WellFormed limit saved) {x : Slot} :
    x ∈ known connected saved ↔ x ∈ saved ∧ x.device ∈ connected.map (·.id) := by
  constructor
  · intro hx
    exact ⟨mem_of_mem_known hx, (mem_devices_known.1 (List.mem_map_of_mem hx)).1⟩
  · rintro ⟨hx, hid⟩
    have hin : x.device ∈ devices saved := List.mem_map_of_mem hx
    obtain ⟨e, he, hex⟩ := List.mem_map.1 (mem_devices_known.2 ⟨hid, h.present _ hin, hin⟩)
    rwa [← h.eq_of_device_eq (mem_of_mem_known he) hx hex]

theorem known_perm_filter (h : WellFormed limit saved) (connected : List Device) :
    (known connected saved).Perm (saved.filter (·.device ∈ connected.map (·.id))) := by
  have hsaved : saved.Nodup := List.Nodup.of_map _ h.distinct
  have hknown : (known connected saved).Nodup := List.Nodup.of_map _ (devices_known_nodup _ _)
  rw [List.perm_ext_iff_of_nodup hknown (hsaved.filter _)]
  intro x
  rw [mem_known_iff h, List.mem_filter, decide_eq_true_eq]

theorem filter_place_perm (h : WellFormed limit saved) (connected : List Device)
    (provider : Provider) (p : Slot → Bool) :
    ((place connected saved limit provider).slots.filter p).Perm
      ((known connected saved).filter p
        ++ (arrivals limit provider (indices (known connected saved))
          (place connected saved limit provider).newcomers).filter p) := by
  rw [slots_place_of_wellFormed h, ← List.filter_append]
  exact (sort_perm _).filter p

theorem not_saved_of_mem_arrivals (h : WellFormed limit saved) {x : Slot}
    (hx : x ∈ arrivals limit provider (indices (known connected saved))
      (place connected saved limit provider).newcomers) : x.device ∉ devices saved := by
  have hid := List.mem_map_of_mem (f := Slot.device) hx
  rw [← devices, devices_arrivals_newcomers h] at hid
  exact (mem_ids_newcomers hid).2.2

/-- The known devices stand as they do in the saved table, on their own positions. -/
theorem filter_known_place (h : WellFormed limit saved) (connected : List Device)
    (provider : Provider) :
    (place connected saved limit provider).slots.filter (·.device ∈ devices saved)
      = saved.filter (·.device ∈ connected.map (·.id)) := by
  have hfresh := wellFormed_place connected saved limit provider
  have hperm := filter_place_perm h connected provider (·.device ∈ devices saved)
  have hknown : (known connected saved).filter (·.device ∈ devices saved)
      = known connected saved := by
    rw [List.filter_eq_self]
    intro x hx
    exact decide_eq_true (List.mem_map_of_mem (mem_of_mem_known hx))
  have hnew : (arrivals limit provider (indices (known connected saved))
      (place connected saved limit provider).newcomers).filter (·.device ∈ devices saved) = [] := by
    rw [List.filter_eq_nil_iff]
    intro x hx hin
    exact not_saved_of_mem_arrivals h hx (of_decide_eq_true hin)
  rw [hknown, hnew, List.append_nil] at hperm
  exact eq_of_perm_of_ascending (hperm.trans (known_perm_filter h connected))
    (indices_filter_ascending hfresh.ascending _) (indices_filter_ascending h.ascending _)

/-- The newcomers stand on the lowest free positions, in the order of their ids. -/
theorem filter_new_place (h : WellFormed limit saved) (connected : List Device)
    (provider : Provider) :
    (place connected saved limit provider).slots.filter (·.device ∉ devices saved)
      = arrivals limit provider (indices (known connected saved))
        (place connected saved limit provider).newcomers := by
  have hfresh := wellFormed_place connected saved limit provider
  have hperm := filter_place_perm h connected provider (·.device ∉ devices saved)
  have hknown : (known connected saved).filter (·.device ∉ devices saved) = [] := by
    rw [List.filter_eq_nil_iff]
    intro x hx hout
    exact of_decide_eq_true hout (List.mem_map_of_mem (mem_of_mem_known hx))
  have hnew : (arrivals limit provider (indices (known connected saved))
      (place connected saved limit provider).newcomers).filter (·.device ∉ devices saved)
        = arrivals limit provider (indices (known connected saved))
          (place connected saved limit provider).newcomers := by
    rw [List.filter_eq_self]
    intro x hx
    exact decide_eq_true (not_saved_of_mem_arrivals h hx)
  rw [hknown, hnew, List.nil_append] at hperm
  exact eq_of_perm_of_ascending hperm (indices_filter_ascending hfresh.ascending _)
    (indices_arrivals_ascending _ _ _ _)

/-! ## Where a known device ends up -/

/-- A known device moves up by the gaps below its position that no newcomer fills. -/
theorem place_add_of_known (h : WellFormed limit saved) {x : Slot}
    (hx : x ∈ known connected saved) {p : Nat}
    (hp : (place connected saved limit provider).slots[p]? = some x) :
    p + ((freeBelow x.index (indices (known connected saved))).length
      - (place connected saved limit provider).newcomers.length) = x.index := by
  have hspread := spread_known h connected
  have hbelow : x.index < limit := hspread.below x.index (List.mem_map_of_mem hx)
  have hgaps := length_freeBelow_add hspread.unshared x.index
  have hrank := countP_lt_index (wellFormed_place connected saved limit provider).ascending hp
  rw [slots_place_of_wellFormed h, ((sort_perm _).map _).countP_eq, List.map_append,
    List.countP_append, ← indices, ← indices, indices_arrivals,
    countP_take_freeBelow hbelow.le] at hrank
  omega

/-! ## The outcome of the pass -/

/-- The ids that count. -/
def validIds (connected : List Device) : Finset String := (connected.map (·.id)).toFinset.erase ""

theorem mem_validIds {i : String} :
    i ∈ validIds connected ↔ i ∈ connected.map (·.id) ∧ i ≠ "" := by
  rw [validIds, Finset.mem_erase, List.mem_toFinset, and_comm]

theorem ids_unknown_eq_sort (connected : List Device) (saved : List Slot) :
    (unknown connected saved).map (·.id)
      = (validIds connected \ (devices saved).toFinset).sort (· ≤ ·) := by
  have hsort := (List.toFinset_sort (· ≤ ·) (ids_unknown_nodup connected saved)).2
    (ids_byId_pairwise _)
  have hset : ((unknown connected saved).map (·.id)).toFinset
      = validIds connected \ (devices saved).toFinset := by
    ext i
    rw [List.mem_toFinset, mem_ids_unknown, Finset.mem_sdiff, mem_validIds, List.mem_toFinset,
      and_assoc]
  rw [← hsort, hset]

theorem card_validIds (hpresent : ∀ i ∈ devices saved, i ≠ "") (connected : List Device) :
    (validIds connected).card
      = (known connected saved).length + (unknown connected saved).length := by
  have hunknown : (validIds connected \ (devices saved).toFinset).card
      = (unknown connected saved).length := by
    rw [← Finset.length_sort (· ≤ ·), ← ids_unknown_eq_sort, List.length_map]
  have hblank : "" ∉ (connected.map (·.id)).toFinset ∩ (devices saved).toFinset := fun hin =>
    hpresent "" (List.mem_toFinset.1 (Finset.mem_inter.1 hin).2) rfl
  have hknown : (validIds connected ∩ (devices saved).toFinset).card
      = (known connected saved).length := by
    rw [validIds, Finset.erase_inter, Finset.erase_eq_of_notMem hblank,
      card_connected_inter hpresent]
  have hsplit := Finset.card_inter_add_card_sdiff (validIds connected) (devices saved).toFinset
  omega

theorem devices_filter (table : List Slot) (p : String → Bool) :
    devices (table.filter fun x => p x.device) = (devices table).filter p := by
  rw [devices, List.filter_map]
  rfl

section Pass
variable (options : PassOptions)

theorem devices_runPass_eq_place
    (hsome : (place connected saved options.maxSlots provider).newcomers ≠ []) :
    devices (runPass connected saved provider options).slots
      = devices (place connected saved options.maxSlots provider).slots := by
  rw [runPass_of_newcomers_ne_nil options hsome, devices_colorAll,
    devices_compact_of_ascending (wellFormed_place _ _ _ _).ascending]

theorem devices_filter_runPass
    (hsome : (place connected saved options.maxSlots provider).newcomers ≠ [])
    (p : String → Bool) :
    devices ((runPass connected saved provider options).slots.filter fun x => p x.device)
      = devices ((place connected saved options.maxSlots provider).slots.filter
          fun x => p x.device) := by
  rw [devices_filter, devices_filter, devices_runPass_eq_place options hsome]

theorem indices_runPass_of_newcomers_ne_nil
    (hsome : (place connected saved options.maxSlots provider).newcomers ≠ []) :
    indices (runPass connected saved provider options).slots
      = List.range (runPass connected saved provider options).slots.length := by
  rw [runPass_of_newcomers_ne_nil options hsome]
  show indices (colorAll _ _) = List.range (colorAll _ _).length
  have hlen := congrArg List.length
    (indices_compact (place connected saved options.maxSlots provider).slots)
  rw [List.length_map, List.length_range] at hlen
  rw [indices_colorAll, indices_compact, colorAll, List.length_map, hlen]

theorem exists_runPass_of_known (h : WellFormed options.maxSlots saved)
    (hsome : (place connected saved options.maxSlots provider).newcomers ≠ []) {x : Slot}
    (hx : x ∈ known connected saved) :
    ∃ y ∈ (runPass connected saved provider options).slots, y.device = x.device ∧
      y.index + ((freeBelow x.index (indices (known connected saved))).length
        - (place connected saved options.maxSlots provider).newcomers.length) = x.index := by
  have hplaced : x ∈ (place connected saved options.maxSlots provider).slots :=
    known_subset_place h hx
  -- renumbering makes its place in the placement its position
  obtain ⟨p, hp⟩ := List.getElem?_of_mem hplaced
  have hascending := (wellFormed_place connected saved options.maxSlots provider).ascending
  have hcompact := getElem?_compact hascending p
  rw [hp, Option.map_some] at hcompact
  refine ⟨colored options.overflow { x with index := p }, ?_, rfl, place_add_of_known h hx hp⟩
  rw [runPass_of_newcomers_ne_nil options hsome]
  exact List.mem_map_of_mem (List.mem_of_getElem? hcompact)

end Pass

/-- The outcome of a pass that meets new hardware over a sound table. It has a slot for each id that
counts, as far as there are positions, and no gaps. The known devices keep their order. The first of
the unknown ids, as many as the known ones leave positions for, follow each other in ascending
order. A known device moves up by the gaps below it beyond those that new devices fill, so it stays
iff they fill all of them. -/
theorem new_hardware_placement (provider : Provider) (options : PassOptions) (table : List Slot)
    (connected : List Device) (h : WellFormed options.maxSlots table)
    (hnew : (runPass connected table provider options).newDevice = true) :
    let slots := (runPass connected table provider options).slots
    let recognized := table.filter (·.device ∈ validIds connected)
    let new := slots.filter (·.device ∉ devices table)
    slots.length = min (validIds connected).card options.maxSlots ∧
    indices slots = List.range slots.length ∧
    (∀ y ∈ slots, y.device ∈ validIds connected) ∧
    devices (slots.filter (·.device ∈ devices table)) = devices recognized ∧
    devices new = ((validIds connected \ (devices table).toFinset).sort (· ≤ ·)).take
      (options.maxSlots - recognized.length) ∧
    ∀ x ∈ recognized, ∃ y ∈ slots, y.device = x.device ∧ y.index ≤ x.index ∧
      (y.index = x.index ↔ (freeBelow x.index (indices recognized)).length ≤ new.length) ∧
      y.index = x.index - ((freeBelow x.index (indices recognized)).length - new.length) := by
  intro slots recognized new
  have hsome := (newDevice_runPass_iff_newcomers options).1 hnew
  have hrecognized : recognized = table.filter (·.device ∈ connected.map (·.id)) := by
    apply List.filter_congr
    intro x hx
    have hne := h.present x.device (List.mem_map_of_mem hx)
    rw [decide_eq_decide, mem_validIds, and_iff_left hne]
  have hperm : (known connected table).Perm recognized := by
    rw [hrecognized]
    exact known_perm_filter h connected
  have hids : devices new
      = (place connected table options.maxSlots provider).newcomers.map (·.id) := by
    rw [← devices_arrivals_newcomers h, ← filter_new_place h]
    exact devices_filter_runPass options hsome (· ∉ devices table)
  have hcount : new.length = (place connected table options.maxSlots provider).newcomers.length := by
    simpa using congrArg List.length hids
  refine ⟨?_, indices_runPass_of_newcomers_ne_nil options hsome, ?_, ?_, ?_, ?_⟩
  · have hlen := (devices_runPass_of_newcomers_ne_nil options h hsome).length_eq
    have hfit := (spread_known h connected).length_le
    rw [List.length_map, List.length_append, List.length_map, List.length_map,
      newcomers_place_of_wellFormed h, List.length_take] at hlen
    show (runPass connected table provider options).slots.length = _
    rw [hlen, card_validIds h.present]
    omega
  · intro y hy
    have hin := List.mem_map_of_mem (f := Slot.device) hy
    rw [← devices, devices_runPass_eq_place options hsome] at hin
    exact mem_validIds.2 (mem_connected_of_mem_place hin)
  · rw [hrecognized, ← filter_known_place h connected provider]
    exact devices_filter_runPass options hsome (· ∈ devices table)
  · rw [hids, newcomers_place_of_wellFormed h, List.map_take, ids_unknown_eq_sort,
      hperm.length_eq]
  · intro x hx
    obtain ⟨y, hy, hdevice, hindex⟩ := exists_runPass_of_known options h hsome (hperm.mem_iff.2 hx)
    have hgaps : freeBelow x.index (indices (known connected table))
        = freeBelow x.index (indices recognized) :=
      freeBelow_congr _ fun i => (hperm.map _).mem_iff
    rw [hgaps, ← hcount] at hindex
    exact ⟨y, hy, hdevice, by omega, by omega, by omega⟩

/-- Two newcomers for three gaps: the player behind the first gap stays, and the one behind all three
moves up by one. -/
theorem new_hardware_placement_between_gaps :
    let provider : Provider := fun _ => .ok (.keyboard ⟨.pro, .empty⟩)
    let options : PassOptions := { maxSlots := 5 }
    let table : List Slot :=
      [⟨1, "a", .keyboard ⟨.pro, .empty⟩⟩, ⟨2, "gone", .keyboard ⟨.pro, .empty⟩⟩,
        ⟨4, "c", .keyboard ⟨.handheld, .empty⟩⟩]
    let connected : List Device :=
      [⟨"z", "Pad"⟩, ⟨"c", "Pad"⟩, ⟨"", "Pad"⟩, ⟨"a", "Pad"⟩, ⟨"x", "Pad"⟩, ⟨"z", "Pad"⟩]
    let slots := (runPass connected table provider options).slots
    let recognized := table.filter (·.device ∈ validIds connected)
    let new := slots.filter (·.device ∉ devices table)
    WellFormed options.maxSlots table ∧
    (runPass connected table provider options).newDevice = true ∧
    slots.map (fun y => (y.index, y.device)) = [(0, "x"), (1, "a"), (2, "z"), (3, "c")] ∧
    slots.length = min (validIds connected).card options.maxSlots ∧
    indices slots = List.range slots.length ∧
    (∀ y ∈ slots, y.device ∈ validIds connected) ∧
    devices (slots.filter (·.device ∈ devices table)) = devices recognized ∧
    devices new = ((validIds connected \ (devices table).toFinset).sort (· ≤ ·)).take
      (options.maxSlots - recognized.length) ∧
    ∀ x ∈ recognized, ∃ y ∈ slots, y.device = x.device ∧ y.index ≤ x.index ∧
      (y.index = x.index ↔ (freeBelow x.index (indices recognized)).length ≤ new.length) ∧
      y.index = x.index - ((freeBelow x.index (indices recognized)).length - new.length) := by
  intro provider options table connected slots recognized new
  have htable : WellFormed options.maxSlots table :=
    { ascending := by simp [table], below := by simp [table, options],
      present := by simp [table], distinct := by simp [table] }
  have hnew : (runPass connected table provider options).newDevice = true := by cbv
  have hslots : (runPass connected table provider options).slots.map
      (fun y => (y.index, y.device)) = [(0, "x"), (1, "a"), (2, "z"), (3, "c")] := by cbv
  exact ⟨htable, hnew, hslots, new_hardware_placement provider options table connected htable hnew⟩

end PlayerSlots.Slot
