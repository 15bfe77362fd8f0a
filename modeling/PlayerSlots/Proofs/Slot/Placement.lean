import PlayerSlots.Proofs.Slot.Seating
import PlayerSlots.Slot.Placement

/-! # Placement

Who gets a position when the connected devices are placed.

* `known`, `unknown`: the saved entries of the connected devices, and the devices without one.
* `occupants_placed`, `devices_place_perm`: the known devices get a position with their saved
  bindings, as far as there are enough, then the newcomers with the provider's.
* `wellFormed_place`: the placement is a sound table, whatever was saved.
* `known_subset_place`: over a sound table every known device keeps its own position, in whatever
  order the devices are connected.
-/

namespace PlayerSlots.Slot
set_option autoImplicit false

variable {limit : Nat} {saved : List Slot} {connected : List Device} {provider : Provider}

/-! ## The devices that count -/

theorem ids_present_nodup (connected : List Device) : ((present connected).map (·.id)).Nodup :=
  keys_firstPer_nodup _ _

theorem mem_ids_present {i : String} :
    i ∈ (present connected).map (·.id) ↔ i ∈ connected.map (·.id) ∧ i ≠ "" := by
  rw [present, mem_keys_firstPer]
  simp only [List.mem_map, List.mem_filter, decide_eq_true_eq]
  constructor
  · rintro ⟨d, ⟨hd, hne⟩, rfl⟩
    exact ⟨⟨d, hd, rfl⟩, hne⟩
  · rintro ⟨⟨d, hd, rfl⟩, hne⟩
    exact ⟨d, ⟨hd, hne⟩, rfl⟩

theorem present_eq (connected : List Device) :
    present connected = (firstPer (·.id) connected).filter (·.id ≠ "") :=
  firstPer_filter Device.id (· ≠ "") connected

/-- A device that counts is the first that is reported under its id. -/
theorem find?_of_mem_present {connected : List Device} {d : Device} (hd : d ∈ present connected) :
    connected.find? (·.id = d.id) = some d := by
  rw [present_eq] at hd
  exact find?_of_mem_firstPer Device.id (List.mem_filter.1 hd).1

theorem ids_present_pairwise (connected : List Device) :
    ((present connected).map (·.id)).Pairwise fun i j =>
      (connected.map (·.id)).idxOf i < (connected.map (·.id)).idxOf j := by
  rw [List.pairwise_map, present_eq]
  exact (firstPer_pairwise Device.id connected).sublist List.filter_sublist

theorem present_eq_self (hpresent : ∀ i ∈ connected.map (·.id), i ≠ "")
    (hdistinct : (connected.map (·.id)).Nodup) : present connected = connected := by
  rw [present_eq, firstPer_eq_self _ hdistinct, List.filter_eq_self]
  intro d hd
  exact decide_eq_true (hpresent d.id (List.mem_map_of_mem hd))

/-! ## Known and unknown devices -/

/-- The saved entries of the connected devices, in the order in which the devices came. -/
def known (connected : List Device) (saved : List Slot) : List Slot :=
  (present connected).filterMap (saved? saved)

/-- The connected devices without a saved entry, in the order of their ids. -/
def unknown (connected : List Device) (saved : List Slot) : List Device :=
  byId ((present connected).filter fun d => (saved? saved d).isNone)

theorem isNone_saved? (saved : List Slot) (d : Device) :
    (saved? saved d).isNone = true ↔ d.id ∉ devices saved := by
  rw [← isSome_ofDevice?, saved?, Option.isNone_iff_eq_none, Option.not_isSome_iff_eq_none]

theorem devices_filterMap_saved? (saved : List Slot) (ds : List Device) :
    devices (ds.filterMap (saved? saved)) = (ds.map (·.id)).filter (· ∈ devices saved) := by
  induction ds with
  | nil => rfl
  | cons d ds ih =>
    cases hf : saved? saved d with
    | none =>
      have hout : d.id ∉ devices saved := (isNone_saved? saved d).1 (by rw [hf]; rfl)
      rw [List.filterMap_cons_none hf, ih, List.map_cons,
        List.filter_cons_of_neg (by simpa using hout)]
    | some e =>
      obtain ⟨he, hid⟩ := mem_of_ofDevice? hf
      have hin : d.id ∈ devices saved := hid ▸ List.mem_map_of_mem he
      rw [List.filterMap_cons_some hf]
      show e.device :: devices (ds.filterMap (saved? saved)) = _
      rw [ih, hid, List.map_cons, List.filter_cons_of_pos (by simpa using hin)]

theorem devices_known (connected : List Device) (saved : List Slot) :
    devices (known connected saved)
      = ((present connected).map (·.id)).filter (· ∈ devices saved) :=
  devices_filterMap_saved? saved _

theorem mem_devices_known {i : String} :
    i ∈ devices (known connected saved)
      ↔ i ∈ connected.map (·.id) ∧ i ≠ "" ∧ i ∈ devices saved := by
  rw [devices_known, List.mem_filter, mem_ids_present, decide_eq_true_eq, and_assoc]

theorem devices_known_nodup (connected : List Device) (saved : List Slot) :
    (devices (known connected saved)).Nodup := by
  rw [devices_known]
  exact (ids_present_nodup connected).filter _

theorem mem_saved_of_mem_take_known {n : Nat} {i : String}
    (hi : i ∈ devices ((known connected saved).take n)) : i ∈ devices saved :=
  (mem_devices_known.1 (((List.take_sublist _ _).map _).subset hi)).2.2

theorem mem_of_mem_known {e : Slot} (he : e ∈ known connected saved) : e ∈ saved := by
  obtain ⟨d, -, hd⟩ := List.mem_filterMap.1 he
  exact (mem_of_ofDevice? hd).1

theorem mem_unknown_iff {d : Device} :
    d ∈ unknown connected saved ↔ d ∈ present connected ∧ d.id ∉ devices saved := by
  have hperm : (unknown connected saved).Perm
      ((present connected).filter fun d => (saved? saved d).isNone) := List.mergeSort_perm _ _
  rw [hperm.mem_iff, List.mem_filter, isNone_saved?]

theorem mem_ids_unknown {i : String} :
    i ∈ (unknown connected saved).map (·.id)
      ↔ i ∈ connected.map (·.id) ∧ i ≠ "" ∧ i ∉ devices saved := by
  rw [← and_assoc, ← mem_ids_present]
  simp only [List.mem_map, mem_unknown_iff]
  constructor
  · rintro ⟨d, ⟨hd, hout⟩, rfl⟩
    exact ⟨⟨d, hd, rfl⟩, hout⟩
  · rintro ⟨⟨d, hd, rfl⟩, hout⟩
    exact ⟨d, ⟨hd, hout⟩, rfl⟩

theorem ids_unknown_nodup (connected : List Device) (saved : List Slot) :
    ((unknown connected saved).map (·.id)).Nodup := by
  have hperm : (unknown connected saved).Perm
      ((present connected).filter fun d => (saved? saved d).isNone) := List.mergeSort_perm _ _
  rw [(hperm.map _).nodup_iff]
  exact (List.filter_sublist.map _).nodup (ids_present_nodup connected)

theorem ids_byId_pairwise (ds : List Device) : ((byId ds).map (·.id)).Pairwise (· ≤ ·) := by
  have h : (byId ds).Pairwise (fun d e => decide (d.id ≤ e.id) = true) := by
    apply List.pairwise_mergeSort
    · intro a b c hab hbc
      exact decide_eq_true (String.le_trans (of_decide_eq_true hab) (of_decide_eq_true hbc))
    · intro a b
      simpa using String.le_total a.id b.id
  rw [List.pairwise_map]
  exact h.imp of_decide_eq_true

/-! ## Newcomers as entries -/

/-- The entry that a newcomer is seated with. Its position is out of range, so that it gets the
lowest free one. -/
def entryOf (limit : Nat) (provider : Provider) (d : Device) : Slot :=
  ⟨limit, d.id, provider.binding d.name⟩

theorem welcome_eq_seat (limit : Nat) (provider : Provider) (table : List Slot) (d : Device) :
    welcome limit provider table d = seat limit table (entryOf limit provider d) := by
  have hout : position? limit table (entryOf limit provider d)
      = lowestFree? (indices table) limit := by
    simp [position?, entryOf]
  rw [welcome, seat, hout]
  rfl

theorem foldl_welcome (limit : Nat) (provider : Provider) (table : List Slot) (ds : List Device) :
    ds.foldl (welcome limit provider) table
      = (ds.map (entryOf limit provider)).foldl (seat limit) table := by
  have hseat : welcome limit provider = fun t d => seat limit t (entryOf limit provider d) := by
    funext t d
    exact welcome_eq_seat limit provider t d
  rw [List.foldl_map, hseat]

/-! ## The placement -/

/-- The positions that the known devices get. -/
abbrev seated (connected : List Device) (saved : List Slot) (limit : Nat) : List Slot :=
  (known connected saved).foldl (seat limit) []

/-- The positions that all get, in the order in which they were given. -/
def placed (connected : List Device) (saved : List Slot) (limit : Nat) (provider : Provider) :
    List Slot :=
  ((place connected saved limit provider).newcomers.map (entryOf limit provider)).foldl (seat limit)
    (seated connected saved limit)

theorem newcomers_place (connected : List Device) (saved : List Slot) (limit : Nat)
    (provider : Provider) :
    (place connected saved limit provider).newcomers
      = (unknown connected saved).take (limit - (seated connected saved limit).length) := rfl

theorem slots_place (connected : List Device) (saved : List Slot) (limit : Nat)
    (provider : Provider) :
    (place connected saved limit provider).slots
      = sort (placed connected saved limit provider) := by
  rw [placed, ← foldl_welcome]
  rfl

theorem spread_seated (connected : List Device) (saved : List Slot) (limit : Nat) :
    Spread limit (seated connected saved limit) :=
  (Spread.nil limit).foldl_seat _

theorem spread_placed (connected : List Device) (saved : List Slot) (limit : Nat)
    (provider : Provider) : Spread limit (placed connected saved limit provider) :=
  (spread_seated connected saved limit).foldl_seat _

theorem occupants_seated (connected : List Device) (saved : List Slot) (limit : Nat) :
    occupants (seated connected saved limit) = occupants ((known connected saved).take limit) := by
  rw [(Spread.nil limit).occupants_foldl_seat]
  simp

/-- What all get: the saved bindings of the known devices, as far as there are positions, then those
from the provider. -/
theorem occupants_placed (connected : List Device) (saved : List Slot) (limit : Nat)
    (provider : Provider) :
    occupants (placed connected saved limit provider)
      = occupants ((known connected saved).take limit
        ++ (place connected saved limit provider).newcomers.map (entryOf limit provider)) := by
  have hseated := occupants_seated connected saved limit
  -- newcomers are cut off where the positions end, so the fold seats every one of them
  have hfit : ((place connected saved limit provider).newcomers.map (entryOf limit provider)).length
      ≤ limit - (seated connected saved limit).length := by
    rw [newcomers_place, List.length_map, List.length_take]
    exact Nat.min_le_left _ _
  rw [placed, (spread_seated connected saved limit).occupants_foldl_seat,
    List.take_of_length_le hfit]
  simp only [occupants, List.map_append] at hseated ⊢
  rw [hseated]

theorem occupants_place_perm (connected : List Device) (saved : List Slot) (limit : Nat)
    (provider : Provider) :
    (occupants (place connected saved limit provider).slots).Perm
      (occupants ((known connected saved).take limit
        ++ (place connected saved limit provider).newcomers.map (entryOf limit provider))) := by
  rw [← occupants_placed, slots_place]
  exact (sort_perm _).map _

theorem devices_placed (connected : List Device) (saved : List Slot) (limit : Nat)
    (provider : Provider) :
    devices (placed connected saved limit provider)
      = devices ((known connected saved).take limit)
        ++ (place connected saved limit provider).newcomers.map (·.id) := by
  have hids :
      devices ((place connected saved limit provider).newcomers.map (entryOf limit provider))
        = (place connected saved limit provider).newcomers.map (·.id) := by
    rw [devices, List.map_map]
    rfl
  rw [devices_of_occupants (occupants_placed connected saved limit provider), ← hids, devices,
    List.map_append]

theorem devices_place_perm (connected : List Device) (saved : List Slot) (limit : Nat)
    (provider : Provider) :
    (devices (place connected saved limit provider).slots).Perm
      (devices ((known connected saved).take limit)
        ++ (place connected saved limit provider).newcomers.map (·.id)) := by
  rw [slots_place, ← devices_placed]
  exact (sort_perm _).map _

theorem mem_ids_newcomers {i : String}
    (hi : i ∈ (place connected saved limit provider).newcomers.map (·.id)) :
    i ∈ connected.map (·.id) ∧ i ≠ "" ∧ i ∉ devices saved := by
  rw [newcomers_place, List.map_take] at hi
  exact mem_ids_unknown.1 ((List.take_sublist _ _).subset hi)

theorem mem_unknown_of_mem_newcomers {d : Device}
    (hd : d ∈ (place connected saved limit provider).newcomers) : d ∈ unknown connected saved := by
  rw [newcomers_place] at hd
  exact List.mem_of_mem_take hd

theorem mem_connected_of_mem_place {i : String}
    (hi : i ∈ devices (place connected saved limit provider).slots) :
    i ∈ connected.map (·.id) ∧ i ≠ "" := by
  rw [(devices_place_perm connected saved limit provider).mem_iff, List.mem_append] at hi
  rcases hi with hi | hi
  · have hk := mem_devices_known.1 (((List.take_sublist _ _).map _).subset hi)
    exact ⟨hk.1, hk.2.1⟩
  · have hn := mem_ids_newcomers hi
    exact ⟨hn.1, hn.2.1⟩

/-- The placement is a sound table, whatever was saved. -/
theorem wellFormed_place (connected : List Device) (saved : List Slot) (limit : Nat)
    (provider : Provider) : WellFormed limit (place connected saved limit provider).slots := by
  have hdistinct : (devices (placed connected saved limit provider)).Nodup := by
    rw [devices_placed, List.nodup_append]
    refine ⟨((List.take_sublist _ _).map _).nodup (devices_known_nodup connected saved), ?_, ?_⟩
    · rw [newcomers_place, List.map_take]
      exact (List.take_sublist _ _).nodup (ids_unknown_nodup connected saved)
    · rintro i hi _ hi' rfl
      exact (mem_ids_newcomers hi').2.2 (mem_saved_of_mem_take_known hi)
  have hpresent : ∀ i ∈ devices (placed connected saved limit provider), i ≠ "" := by
    intro i hi
    have hi' : i ∈ devices (place connected saved limit provider).slots := by
      rw [slots_place]
      exact ((sort_perm _).map _).mem_iff.2 hi
    exact (mem_connected_of_mem_place hi').2
  rw [slots_place]
  exact (spread_placed connected saved limit provider).wellFormed_sort hpresent hdistinct

/-! ## Placement over a sound table -/

theorem spread_known (h : WellFormed limit saved) (connected : List Device) :
    Spread limit (known connected saved) where
  unshared := by
    rw [indices, List.nodup_iff_pairwise_ne, List.pairwise_map]
    have hdevices :=
      List.pairwise_map.1 (List.nodup_iff_pairwise_ne.1 (devices_known_nodup connected saved))
    refine hdevices.imp_of_mem fun he hf hne hindex => hne ?_
    rw [h.eq_of_index_eq (mem_of_mem_known he) (mem_of_mem_known hf) hindex]
  below := by
    intro i hi
    obtain ⟨e, he, rfl⟩ := List.mem_map.1 hi
    exact h.below e.index (List.mem_map_of_mem (mem_of_mem_known he))

theorem seated_of_wellFormed (h : WellFormed limit saved) (connected : List Device) :
    seated connected saved limit = known connected saved := by
  have hspread := spread_known h connected
  rw [seated, foldl_seat_inPlace]
  · exact List.nil_append _
  · intro e he
    exact hspread.below e.index (List.mem_map_of_mem he)
  · exact hspread.unshared

theorem newcomers_place_of_wellFormed (h : WellFormed limit saved) (connected : List Device)
    (provider : Provider) :
    (place connected saved limit provider).newcomers
      = (unknown connected saved).take (limit - (known connected saved).length) := by
  rw [newcomers_place, seated_of_wellFormed h]

theorem known_take_limit (h : WellFormed limit saved) (connected : List Device) :
    (known connected saved).take limit = known connected saved :=
  List.take_of_length_le (spread_known h connected).length_le

/-- Every known device keeps its own position. -/
theorem known_subset_place (h : WellFormed limit saved) {e : Slot}
    (he : e ∈ known connected saved) : e ∈ (place connected saved limit provider).slots := by
  rw [slots_place, mem_sort]
  rw [← seated_of_wellFormed h] at he
  exact (prefix_foldl_seat limit _ _).subset he

/-- Without a newcomer only the known devices are placed, each on its own position. -/
theorem slots_place_of_newcomers_nil (h : WellFormed limit saved)
    (hnone : (place connected saved limit provider).newcomers = []) :
    (place connected saved limit provider).slots = sort (known connected saved) := by
  rw [slots_place, placed, hnone, List.map_nil, List.foldl_nil, seated_of_wellFormed h]

end PlayerSlots.Slot
