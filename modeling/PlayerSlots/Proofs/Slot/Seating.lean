import PlayerSlots.Proofs.Slot.Table
import PlayerSlots.Slot.Seating

/-! # Seating entries

What a table holds after entries have been seated in it, and what repair makes of a saved list.

* `Spread.seat_cases`: an entry gets a free position, or the table is full.
* `Spread.foldl_seat`, `Spread.occupants_foldl_seat`: of many entries in turn the first ones get a
  position, as many as there are, and nobody who has a position loses it.
* `foldl_seat_inPlace`: entries whose own positions are free all keep them.
* `wellFormed_repair`: repair makes a sound table of any saved list.
* `repair_eq_self`: it changes nothing in a sound table whose ids are in normal form.
* `occupants_repair_perm_take`: for another number of positions it keeps the first slots of such a
  table, as many as there are positions.
-/

namespace PlayerSlots.Slot
set_option autoImplicit false

variable {limit : Nat} {table : List Slot}

/-! ## One entry -/

/-- What a slot holds, whatever its position. -/
def occupant (s : Slot) : String × Binding := (s.device, s.binding)

/-- What a table holds, without the positions. -/
abbrev occupants (table : List Slot) : List (String × Binding) := table.map occupant

theorem devices_of_occupants {t u : List Slot} (h : occupants t = occupants u) :
    devices t = devices u := by
  simpa [occupants, devices, Function.comp_def, occupant] using congrArg (List.map Prod.fst) h

theorem position?_eq_some {s : Slot} {i : Nat} (h : position? limit table s = some i) :
    i < limit ∧ i ∉ indices table := by
  unfold position? at h
  split at h
  · rename_i hown
    cases h
    exact hown
  · obtain ⟨hi, hfree, -⟩ := lowestFree?_eq_some_iff.1 h
    exact ⟨hi, hfree⟩

theorem position?_eq_none_iff {s : Slot} :
    position? limit table s = none ↔ ∀ i < limit, i ∈ indices table := by
  unfold position?
  split
  · rename_i hown
    exact iff_of_false (by simp) fun hall => hown.2 (hall _ hown.1)
  · exact lowestFree?_eq_none_iff

/-- An entry gets a free position, or the table is full. -/
theorem Spread.seat_cases (h : Spread limit table) (s : Slot) :
    (table.length < limit ∧ ∃ i, i < limit ∧ i ∉ indices table ∧
      seat limit table s = table ++ [{ s with index := i }]) ∨
    (table.length = limit ∧ seat limit table s = table) := by
  cases hp : position? limit table s with
  | some i =>
    obtain ⟨hi, hfree⟩ := position?_eq_some hp
    have hne : table.length ≠ limit := fun hlen => hfree (h.full_iff.2 hlen i hi)
    exact .inl ⟨Nat.lt_of_le_of_ne h.length_le hne, i, hi, hfree, by simp [seat, hp]⟩
  | none =>
    exact .inr ⟨h.full_iff.1 (position?_eq_none_iff.1 hp), by simp [seat, hp]⟩

theorem Spread.append_singleton (h : Spread limit table) {s : Slot} (hi : s.index < limit)
    (hfree : s.index ∉ indices table) : Spread limit (table ++ [s]) where
  unshared := by
    rw [indices, List.map_append, List.map_singleton, ← List.concat_eq_append]
    exact (List.nodup_concat _ _).2 ⟨hfree, h.unshared⟩
  below := by
    intro i hi'
    rw [indices, List.map_append, List.mem_append] at hi'
    rcases hi' with hi' | hi'
    · exact h.below i hi'
    · rw [List.map_singleton, List.mem_singleton] at hi'
      exact hi' ▸ hi

theorem Spread.seat (h : Spread limit table) (s : Slot) : Spread limit (seat limit table s) := by
  rcases h.seat_cases s with ⟨-, i, hi, hfree, heq⟩ | ⟨-, heq⟩
  · rw [heq]
    exact h.append_singleton hi hfree
  · rw [heq]
    exact h

/-! ## Many entries -/

theorem Spread.foldl_seat (h : Spread limit table) (entries : List Slot) :
    Spread limit (entries.foldl (Slot.seat limit) table) := by
  induction entries generalizing table with
  | nil => exact h
  | cons e entries ih => exact ih (h.seat e)

/-- Who has a position keeps it, and the entries get the positions that are left, first come first
served. -/
theorem Spread.occupants_foldl_seat (h : Spread limit table) (entries : List Slot) :
    occupants (entries.foldl (Slot.seat limit) table)
      = occupants (table ++ entries.take (limit - table.length)) := by
  induction entries generalizing table with
  | nil => simp
  | cons e entries ih =>
    rw [List.foldl_cons, ih (h.seat e)]
    rcases h.seat_cases e with ⟨hlt, i, -, -, heq⟩ | ⟨hlen, heq⟩
    · have htake : limit - table.length = limit - (table.length + 1) + 1 := by omega
      rw [heq, List.length_append, List.length_singleton, htake, List.take_succ_cons]
      simp [occupants, occupant]
    · rw [heq, hlen, Nat.sub_self, List.take_zero, List.take_zero]

theorem prefix_foldl_seat (limit : Nat) (table entries : List Slot) :
    table <+: entries.foldl (seat limit) table := by
  induction entries generalizing table with
  | nil => exact List.prefix_rfl
  | cons e entries ih =>
    refine List.IsPrefix.trans ?_ (ih (seat limit table e))
    unfold seat
    split
    · exact List.prefix_append _ _
    · exact List.prefix_rfl

/-- Entries whose own positions are in range and free, and not shared among them, keep them. -/
theorem foldl_seat_inPlace {entries : List Slot} (hbelow : ∀ e ∈ entries, e.index < limit)
    (hunshared : (indices (table ++ entries)).Nodup) :
    entries.foldl (seat limit) table = table ++ entries := by
  induction entries generalizing table with
  | nil => simp
  | cons e entries ih =>
    have hfree : e.index ∉ indices table := by
      rw [indices, List.map_append, List.nodup_append] at hunshared
      intro hin
      exact hunshared.2.2 e.index hin e.index (by simp) rfl
    have hseat : seat limit table e = table ++ [e] := by
      simp [seat, position?, hbelow e (List.mem_cons_self ..), hfree]
    rw [List.append_cons] at hunshared ⊢
    rw [List.foldl_cons, hseat]
    exact ih (fun d hd => hbelow d (List.mem_cons_of_mem e hd)) hunshared

/-! ## Repair -/

theorem devices_usable_nodup (saved : List Slot) : (devices (usable saved)).Nodup :=
  keys_firstPer_nodup _ _

/-- The ids of the entries that count are present and in normal form. -/
theorem device_of_mem_usable {saved : List Slot} {e : Slot} (he : e ∈ usable saved) :
    e.device ≠ "" ∧ normalizeId e.device = e.device := by
  have hmem := (firstPer_sublist _ _).subset he
  rw [List.mem_filter, List.mem_map] at hmem
  obtain ⟨⟨s, -, rfl⟩, hne⟩ := hmem
  exact ⟨by simpa using hne, normalizeId_normalizeId _⟩

theorem inPlace_sublist (limit : Nat) (entries : List Slot) :
    (inPlace limit entries).Sublist entries :=
  (firstPer_sublist _ _).trans List.filter_sublist

theorem spread_inPlace (limit : Nat) (entries : List Slot) :
    Spread limit (inPlace limit entries) where
  unshared := keys_firstPer_nodup _ _
  below := by
    intro i hi
    obtain ⟨e, he, rfl⟩ := List.mem_map.1 hi
    have hmem := (firstPer_sublist _ _).subset he
    simpa using (List.mem_filter.1 hmem).2

/-- The entries that have lost their positions to others, or have none in range. -/
def displaced (limit : Nat) (entries : List Slot) : List Slot :=
  entries.filter fun s => s.device ∉ devices (inPlace limit entries)

theorem repair_eq (limit : Nat) (saved : List Slot) :
    repair limit saved =
      sort ((displaced limit (usable saved)).foldl (seat limit) (inPlace limit (usable saved))) :=
  rfl

/-- What a repaired table holds: the entries in place, and of the displaced ones as many as fit. -/
theorem occupants_repair_perm (limit : Nat) (saved : List Slot) :
    (occupants (repair limit saved)).Perm
      (occupants (inPlace limit (usable saved) ++ (displaced limit (usable saved)).take
        (limit - (inPlace limit (usable saved)).length))) := by
  rw [repair_eq, ← (spread_inPlace limit _).occupants_foldl_seat]
  exact (sort_perm _).map _

theorem devices_perm_of_occupants {t u : List Slot} (h : (occupants t).Perm (occupants u)) :
    (devices t).Perm (devices u) := by
  have hfst := h.map Prod.fst
  rwa [occupants, occupants, List.map_map, List.map_map] at hfst

theorem devices_repair_perm (limit : Nat) (saved : List Slot) :
    (devices (repair limit saved)).Perm
      (devices (inPlace limit (usable saved)) ++ devices ((displaced limit (usable saved)).take
        (limit - (inPlace limit (usable saved)).length))) := by
  rw [devices, devices, devices, ← List.map_append]
  exact devices_perm_of_occupants (occupants_repair_perm limit saved)

theorem mem_devices_usable_of_mem_repair {saved : List Slot} {d : String}
    (hd : d ∈ devices (repair limit saved)) : d ∈ devices (usable saved) := by
  rw [(devices_repair_perm limit saved).mem_iff, List.mem_append] at hd
  rcases hd with hd | hd
  · exact ((inPlace_sublist limit _).map _).subset hd
  · exact (((List.take_sublist _ _).trans List.filter_sublist).map _).subset hd

/-- Repair makes a sound table of any saved list. -/
theorem wellFormed_repair (limit : Nat) (saved : List Slot) :
    WellFormed limit (repair limit saved) := by
  have hspread := (spread_inPlace limit (usable saved)).foldl_seat (displaced limit (usable saved))
  have hperm := devices_repair_perm limit saved
  have hdistinct : (devices (repair limit saved)).Nodup := by
    rw [hperm.nodup_iff, List.nodup_append]
    have hentries := devices_usable_nodup saved
    refine ⟨((inPlace_sublist limit _).map _).nodup hentries,
      (((List.take_sublist _ _).trans List.filter_sublist).map _).nodup hentries, ?_⟩
    -- a displaced entry is one whose device is not in place
    rintro d hd _ hd' rfl
    obtain ⟨e, he, rfl⟩ := List.mem_map.1 hd'
    have hout := (List.mem_filter.1 ((List.take_sublist _ _).subset he)).2
    exact of_decide_eq_true hout hd
  rw [repair_eq] at hdistinct ⊢
  refine hspread.wellFormed_sort ?_ (((sort_perm _).map _).nodup_iff.1 hdistinct)
  intro d hd
  have hd' : d ∈ devices (repair limit saved) := ((sort_perm _).map _).mem_iff.2 hd
  obtain ⟨e, he, rfl⟩ := List.mem_map.1 (mem_devices_usable_of_mem_repair hd')
  exact (device_of_mem_usable he).1

theorem normalizeId_of_mem_repair {saved : List Slot} {d : String}
    (hd : d ∈ devices (repair limit saved)) : normalizeId d = d := by
  obtain ⟨e, he, rfl⟩ := List.mem_map.1 (mem_devices_usable_of_mem_repair hd)
  exact (device_of_mem_usable he).2

theorem usable_eq_self (hpresent : ∀ d ∈ devices table, d ≠ "") (hdistinct : (devices table).Nodup)
    (hnormal : ∀ d ∈ devices table, normalizeId d = d) : usable table = table := by
  have hmap : table.map (fun s => { s with device := normalizeId s.device }) = table := by
    conv_rhs => rw [← List.map_id table]
    refine List.map_congr_left fun s hs => ?_
    rw [hnormal s.device (List.mem_map_of_mem hs)]
    rfl
  rw [usable, hmap, List.filter_eq_self.2]
  · exact firstPer_eq_self _ hdistinct
  · intro s hs
    exact decide_eq_true (hpresent s.device (List.mem_map_of_mem hs))

/-- In a table in order the slots below a limit come first. -/
theorem filter_append_filter_not (h : (indices table).Pairwise (· < ·)) (limit : Nat) :
    table.filter (·.index < limit) ++ table.filter (fun s => ¬ s.index < limit) = table := by
  induction table with
  | nil => rfl
  | cons s table ih =>
    obtain ⟨hfirst, hrest⟩ := List.pairwise_cons.1 h
    by_cases hs : s.index < limit
    · rw [List.filter_cons_of_pos (by simpa using hs), List.filter_cons_of_neg (by simpa using hs),
        List.cons_append, ih hrest]
    · -- what follows is above the limit as well
      have habove : ∀ t ∈ table, ¬ t.index < limit := by
        intro t ht
        have hlt : s.index < t.index := hfirst t.index (List.mem_map_of_mem ht)
        omega
      rw [List.filter_cons_of_neg (by simpa using hs), List.filter_cons_of_pos (by simpa using hs),
        List.filter_eq_nil_iff.2 (by simpa using habove),
        List.filter_eq_self.2 (by simpa using habove), List.nil_append]

theorem inPlace_of_distinct (h : (indices table).Nodup) (limit : Nat) :
    inPlace limit table = table.filter (·.index < limit) :=
  firstPer_eq_self _ ((List.filter_sublist.map _).nodup h)

theorem displaced_of_distinct (h : WellFormed limit table) (limit' : Nat) :
    displaced limit' table = table.filter fun s => ¬ s.index < limit' := by
  rw [displaced, inPlace_of_distinct h.spread.unshared]
  apply List.filter_congr
  intro s hs
  refine decide_eq_decide.2 (not_congr ?_)
  constructor
  · intro hin
    obtain ⟨t, ht, hd⟩ := List.mem_map.1 hin
    obtain ⟨ht, hlt⟩ := List.mem_filter.1 ht
    rw [h.eq_of_device_eq ht hs hd] at hlt
    exact of_decide_eq_true hlt
  · intro hlt
    exact List.mem_map_of_mem (List.mem_filter.2 ⟨hs, decide_eq_true hlt⟩)

/-- Repair for another number of positions keeps the first slots, as many as there are positions. -/
theorem occupants_repair_perm_take (h : WellFormed limit table)
    (hnormal : ∀ d ∈ devices table, normalizeId d = d) (limit' : Nat) :
    (occupants (repair limit' table)).Perm (occupants (table.take limit')) := by
  have hperm := occupants_repair_perm limit' table
  have hfit := (spread_inPlace limit' table).length_le
  rw [usable_eq_self h.present h.distinct hnormal] at hperm
  have htake : inPlace limit' table
      ++ (displaced limit' table).take (limit' - (inPlace limit' table).length)
        = table.take limit' := by
    calc inPlace limit' table
          ++ (displaced limit' table).take (limit' - (inPlace limit' table).length)
        = (inPlace limit' table ++ displaced limit' table).take limit' := by
          rw [List.take_append, List.take_of_length_le hfit]
      _ = table.take limit' := by
          rw [inPlace_of_distinct h.spread.unshared, displaced_of_distinct h,
            filter_append_filter_not h.ascending]
  rwa [htake] at hperm

/-- Repair changes nothing in a sound table whose ids are in normal form. -/
theorem repair_eq_self (h : WellFormed limit table)
    (hnormal : ∀ d ∈ devices table, normalizeId d = d) : repair limit table = table := by
  have hbelow : ∀ s ∈ table, s.index < limit := fun s hs =>
    h.below s.index (List.mem_map_of_mem hs)
  have hinPlace : inPlace limit table = table := by
    rw [inPlace_of_distinct h.spread.unshared, List.filter_eq_self.2]
    intro s hs
    exact decide_eq_true (hbelow s hs)
  have hdisplaced : displaced limit table = [] := by
    rw [displaced_of_distinct h, List.filter_eq_nil_iff]
    intro s hs hout
    exact of_decide_eq_true hout (hbelow s hs)
  rw [repair_eq, usable_eq_self h.present h.distinct hnormal, hdisplaced, hinPlace, List.foldl_nil,
    h.sort_eq]

end PlayerSlots.Slot
