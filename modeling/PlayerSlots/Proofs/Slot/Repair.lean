import PlayerSlots.Proofs.Slot.FreePositions

/-! # Repair

What repair makes of a saved list in any state, entry by entry.

* `mem_usable_iff`, `devices_usable_pairwise`: the entries that count are the first ones of their
  ids, in the order in which the ids first occur.
* `inPlace_eq_filter`: an entry stays in place iff it is the first on a position in range.
* `repair_eq_append`: the entries in place, and the others on the free positions in turn.
* `length_repair`: nobody is dropped as long as there is a free position.
* `repair_is_minimal`: the main statement.
-/

namespace PlayerSlots.Slot
set_option autoImplicit false

variable {limit : Nat} {saved entries : List Slot}

/-! ## The entries that count -/

/-- A saved list with the ids in normal form. -/
def normalized (saved : List Slot) : List Slot :=
  saved.map fun s => { s with device := normalizeId s.device }

theorem usable_eq (saved : List Slot) :
    usable saved = (firstPer (·.device) (normalized saved)).filter (·.device ≠ "") :=
  firstPer_filter Slot.device (· ≠ "") (normalized saved)

theorem mem_usable_iff {e : Slot} :
    e ∈ usable saved ↔
      e.device ≠ "" ∧ (normalized saved).find? (·.device = e.device) = some e := by
  rw [usable_eq, List.mem_filter, mem_firstPer_iff, decide_eq_true_eq, and_comm]

theorem devices_usable_pairwise (saved : List Slot) :
    (devices (usable saved)).Pairwise fun d d' =>
      (devices (normalized saved)).idxOf d < (devices (normalized saved)).idxOf d' := by
  rw [List.pairwise_map, usable_eq]
  exact (firstPer_pairwise Slot.device _).sublist List.filter_sublist

theorem length_usable (saved : List Slot) :
    (usable saved).length = ((devices (normalized saved)).toFinset.erase "").card := by
  have hdevices : devices (usable saved)
      = (devices (firstPer (·.device) (normalized saved))).filter (· ≠ "") := by
    rw [usable_eq, devices, List.filter_map]
    rfl
  have hset : (devices (usable saved)).toFinset
      = (devices (normalized saved)).toFinset.erase "" := by
    ext d
    rw [hdevices, List.mem_toFinset, List.mem_filter, mem_keys_firstPer, Finset.mem_erase,
      List.mem_toFinset, decide_eq_true_eq, and_comm]
  rw [← hset, List.toFinset_card_of_nodup (devices_usable_nodup saved), List.length_map]

/-! ## The entries in place -/

theorem inPlace_eq_filter (h : entries.Nodup) (limit : Nat) :
    inPlace limit entries = entries.filter fun e =>
      e.index < limit ∧ entries.find? (·.index = e.index) = some e := by
  rw [inPlace, firstPer_filter Slot.index (· < limit), firstPer_eq_filter _ h, List.filter_filter]
  simp

theorem displaced_eq_filter (h : (devices entries).Nodup) (limit : Nat) :
    displaced limit entries = entries.filter (· ∉ inPlace limit entries) := by
  apply List.filter_congr
  intro e he
  refine decide_eq_decide.2 (not_congr ?_)
  constructor
  · intro hin
    obtain ⟨f, hf, hd⟩ := List.mem_map.1 hin
    rwa [← List.inj_on_of_nodup_map h ((inPlace_sublist limit entries).subset hf) he hd]
  · exact List.mem_map_of_mem

/-- A position in range that is asked for is held by an entry in place. -/
theorem index_mem_indices_inPlace {e : Slot} (he : e ∈ entries) (hi : e.index < limit) :
    e.index ∈ indices (inPlace limit entries) := by
  rw [indices, inPlace, mem_keys_firstPer]
  exact List.mem_map_of_mem (List.mem_filter.2 ⟨he, decide_eq_true hi⟩)

theorem inPlace_append_displaced_perm (h : (devices entries).Nodup) (limit : Nat) :
    (inPlace limit entries ++ displaced limit entries).Perm entries := by
  have hentries : entries.Nodup := List.Nodup.of_map _ h
  have hdisplaced : displaced limit entries = entries.filter fun e =>
      !decide (e.index < limit ∧ entries.find? (·.index = e.index) = some e) := by
    rw [displaced_eq_filter h, inPlace_eq_filter hentries]
    apply List.filter_congr
    intro e he
    simp [he]
  rw [hdisplaced, inPlace_eq_filter hentries]
  exact List.filter_append_perm _ _

/-! ## The repaired table -/

/-- Repair leaves the entries in place, and gives the others the free positions in turn. -/
theorem repair_eq_append (limit : Nat) (saved : List Slot) :
    repair limit saved = sort (inPlace limit (usable saved) ++
      reseated limit (indices (inPlace limit (usable saved))) (displaced limit (usable saved))) := by
  rw [repair_eq, foldl_seat_eq_append]
  intro e he
  exact index_mem_indices_inPlace (List.mem_of_mem_filter he)

theorem origin_of_mem_repair {y : Slot} (hy : y ∈ repair limit saved) :
    ∃ e ∈ usable saved, y.device = e.device ∧ y.binding = e.binding := by
  rw [repair_eq_append, mem_sort, List.mem_append] at hy
  rcases hy with hy | hy
  · exact ⟨y, (inPlace_sublist limit _).subset hy, rfl, rfl⟩
  · obtain ⟨-, -, e, he, hsame⟩ := mem_reseated hy
    exact ⟨e, List.mem_of_mem_filter he, hsame⟩

/-- An entry is unchanged iff it is in place: a position that it asks for is not free. -/
theorem mem_repair_iff {e : Slot} (he : e ∈ usable saved) :
    e ∈ repair limit saved ↔ e ∈ inPlace limit (usable saved) := by
  rw [repair_eq_append, mem_sort, List.mem_append, or_iff_left_iff_imp]
  intro hmoved
  obtain ⟨hlt, hfree, -⟩ := mem_reseated hmoved
  exact absurd (index_mem_indices_inPlace he hlt) hfree

theorem length_repair (limit : Nat) (saved : List Slot) :
    (repair limit saved).length = min (usable saved).length limit := by
  have hlen := (occupants_repair_perm limit saved).length_eq
  have hsplit := (inPlace_append_displaced_perm (devices_usable_nodup saved) limit).length_eq
  have hfit := (spread_inPlace limit (usable saved)).length_le
  rw [List.length_append] at hsplit
  rw [List.length_map, List.length_map, List.length_append, List.length_take] at hlen
  omega

/-- A device is dropped only when every position is taken. -/
theorem indices_repair_of_dropped {d : String} (hd : d ∈ devices (usable saved))
    (hout : d ∉ devices (repair limit saved)) :
    indices (repair limit saved) = List.range limit := by
  have hfresh := wellFormed_repair limit saved
  have hsub : devices (repair limit saved) ⊆ devices (usable saved) := fun _ =>
    mem_devices_usable_of_mem_repair
  -- with as many slots as entries nobody would be missing
  have hfewer : (repair limit saved).length ≠ (usable saved).length := fun heq => by
    have hperm := (List.subperm_of_subset hfresh.distinct hsub).perm_of_length_le (by simp [heq])
    exact hout (hperm.mem_iff.2 hd)
  have hlen := length_repair limit saved
  exact hfresh.indices_eq_range (by omega)

/-- Repair of any saved list. The first entry counts for each id that is present in normal form. The
table is sound, and holds as many of these entries as there are positions. An entry keeps its
position iff it is in range and the entry is the first there; the others get the positions that are
left free, the lowest first, in their order, with the bindings they had. Nobody is dropped before
all positions are taken. Sound tables stay as they are, so nothing is left to a second repair, for
as many positions or more. -/
theorem repair_is_minimal (limit : Nat) (saved : List Slot) :
    let used := usable saved
    let kept := used.filter fun e => e.index < limit ∧ used.find? (·.index = e.index) = some e
    let result := repair limit saved
    (∀ e, e ∈ used ↔ e.device ≠ "" ∧ (normalized saved).find? (·.device = e.device) = some e) ∧
    ((devices used).Pairwise fun d d' =>
      (devices (normalized saved)).idxOf d < (devices (normalized saved)).idxOf d') ∧
    WellFormed limit result ∧ (∀ d ∈ devices result, normalizeId d = d) ∧
    result.length = min ((devices (normalized saved)).toFinset.erase "").card limit ∧
    (∀ y ∈ result, ∃ e ∈ used, y.device = e.device ∧ y.binding = e.binding) ∧
    (∀ e ∈ used, e ∈ result ↔ e.index < limit ∧ used.find? (·.index = e.index) = some e) ∧
    result.Perm (kept ++ reseated limit (indices kept) (used.filter (· ∉ kept))) ∧
    (∀ e ∈ used, e.device ∉ devices result → indices result = List.range limit) ∧
    (∀ table, WellFormed limit table → (∀ d ∈ devices table, normalizeId d = d) →
      repair limit table = table) ∧
    ∀ larger, limit ≤ larger → repair larger result = result := by
  intro used kept result
  have hdistinct := devices_usable_nodup saved
  have hkept : inPlace limit used = kept := inPlace_eq_filter (List.Nodup.of_map _ hdistinct) limit
  have hfresh : WellFormed limit result := wellFormed_repair limit saved
  have hnormal : ∀ d ∈ devices result, normalizeId d = d := fun _ => normalizeId_of_mem_repair
  refine ⟨fun e => mem_usable_iff, devices_usable_pairwise saved, hfresh, hnormal, ?_,
    fun y => origin_of_mem_repair, ?_, ?_, ?_, ?_, ?_⟩
  · rw [← length_usable]
    exact length_repair limit saved
  · intro e he
    rw [mem_repair_iff he, hkept, List.mem_filter, decide_eq_true_eq, and_iff_right he]
  · rw [← hkept, ← displaced_eq_filter hdistinct]
    show (repair limit saved).Perm _
    rw [repair_eq_append]
    exact sort_perm _
  · intro e he
    exact indices_repair_of_dropped (List.mem_map_of_mem he)
  · intro table htable
    exact repair_eq_self htable
  · intro larger hle
    exact repair_eq_self (hfresh.mono hle) hnormal

/-- Five entries count, for four positions: two of them are displaced by earlier ones and one is out
of range. The first two of these three fill the gaps. -/
theorem repair_is_minimal_crowded :
    let pad : Binding := .keyboard ⟨.pro, .empty⟩
    let saved : List Slot :=
      [⟨1, "a", pad⟩, ⟨1, "b 2", pad⟩, ⟨42, "c", pad⟩, ⟨0, " ", pad⟩, ⟨3, "a x", pad⟩,
        ⟨2, "d", pad⟩, ⟨2, "e", pad⟩]
    let fresh : List Slot := [⟨0, "b", pad⟩, ⟨1, "a", pad⟩, ⟨2, "d", pad⟩, ⟨3, "c", pad⟩]
    usable saved = [⟨1, "a", pad⟩, ⟨1, "b", pad⟩, ⟨42, "c", pad⟩, ⟨2, "d", pad⟩, ⟨2, "e", pad⟩] ∧
    repair 4 saved = fresh ∧
    (∃ e ∈ usable saved, "b" = e.device ∧ pad = e.binding) ∧
    (⟨2, "d", pad⟩ ∈ fresh ↔
      2 < 4 ∧ (usable saved).find? (·.index = 2) = some ⟨2, "d", pad⟩) ∧
    "e" ∉ devices fresh ∧ indices fresh = List.range 4 ∧
    repair 4 fresh = fresh ∧ repair 6 fresh = fresh := by
  intro pad saved fresh
  have hused : usable saved = [⟨1, "a", pad⟩, ⟨1, "b", pad⟩, ⟨42, "c", pad⟩, ⟨2, "d", pad⟩,
      ⟨2, "e", pad⟩] := by decide +kernel
  obtain ⟨-, -, hsound, hnormal, -, horigin, hkept, hperm, hdropped, hself, hlarger⟩ :=
    repair_is_minimal 4 saved
  have hfresh : repair 4 saved = fresh := by
    refine eq_of_perm_of_ascending (hperm.trans ?_) hsound.ascending (by simp [fresh])
    rw [hused]
    decide +kernel
  rw [hfresh] at hsound hnormal horigin hkept hdropped hlarger
  have hd : ⟨2, "d", pad⟩ ∈ usable saved := by simp [hused]
  have he : ⟨2, "e", pad⟩ ∈ usable saved := by simp [hused]
  have hout : "e" ∉ devices fresh := by simp [fresh]
  exact ⟨hused, hfresh, horigin ⟨0, "b", pad⟩ (by simp [fresh]), hkept _ hd, hout,
    hdropped _ he hout, hself fresh hsound hnormal, hlarger 6 (by decide)⟩

end PlayerSlots.Slot
