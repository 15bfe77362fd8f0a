import PlayerSlots.Proofs.Slot.Newcomers

/-! # Free positions

Newcomers take the lowest free positions in turn. Here a placement over a sound table is written
without a fold: the known devices on their own positions, and the newcomers on the first of the free
ones.

* `freeBelow`: the free positions in ascending order; `length_freeBelow_add` and
  `countP_take_freeBelow` count them.
* `reseated`: entries on the free positions in turn; `foldl_seat_eq_append`.
* `arrivals`: devices on the free positions in turn; `foldl_welcome_eq_append`.
* `slots_place_of_wellFormed`: the placement in these terms.
-/

namespace PlayerSlots.Slot
set_option autoImplicit false

variable {limit : Nat} {table saved : List Slot} {connected : List Device} {provider : Provider}

/-! ## Free positions -/

/-- The positions below `limit` that are not taken, in ascending order. -/
def freeBelow (limit : Nat) (taken : List Nat) : List Nat :=
  (List.range limit).filter (· ∉ taken)

theorem lowestFree?_eq_head? (limit : Nat) (taken : List Nat) :
    lowestFree? taken limit = (freeBelow limit taken).head? := by
  rw [freeBelow, List.head?_filter]
  ext i
  rw [lowestFree?_eq_some_iff, List.find?_range_eq_some, List.mem_range, and_left_comm]
  simp

theorem freeBelow_congr (limit : Nat) {taken taken' : List Nat} (h : ∀ i, i ∈ taken ↔ i ∈ taken') :
    freeBelow limit taken = freeBelow limit taken' :=
  List.filter_congr fun i _ => decide_eq_decide.2 (not_congr (h i))

theorem freeBelow_append_head {taken rest : List Nat} {i : Nat}
    (h : freeBelow limit taken = i :: rest) : freeBelow limit (taken ++ [i]) = rest := by
  have hnodup : (i :: rest).Nodup := h ▸ List.nodup_range.filter _
  have hsplit : freeBelow limit (taken ++ [i]) = (freeBelow limit taken).filter (· ≠ i) := by
    rw [freeBelow, freeBelow, List.filter_filter]
    apply List.filter_congr
    intro j _
    simp [and_comm]
  rw [hsplit, h, List.filter_cons_of_neg (by simp), List.filter_eq_self]
  intro j hj
  exact decide_eq_true fun he => (List.nodup_cons.1 hnodup).1 (he ▸ hj)

theorem length_freeBelow_add (h : (indices table).Nodup) (s : Nat) :
    (freeBelow s (indices table)).length + (indices table).countP (· < s) = s := by
  have hperm : ((indices table).filter (· < s)).Perm
      ((List.range s).filter (· ∈ indices table)) := by
    rw [List.perm_ext_iff_of_nodup (h.filter _) (List.nodup_range.filter _)]
    intro i
    simp [and_comm]
  have htaken := hperm.length_eq
  have hall := List.length_eq_countP_add_countP (fun i => decide (i ∈ indices table))
    (l := List.range s)
  rw [← List.countP_eq_length_filter, ← List.countP_eq_length_filter] at htaken
  rw [List.length_range] at hall
  have hfree : (freeBelow s (indices table)).length
      = (List.range s).countP (fun i => decide ¬ decide (i ∈ indices table) = true) := by
    rw [freeBelow, ← List.countP_eq_length_filter]
    simp
  omega

theorem countP_take_freeBelow {s : Nat} (hs : s ≤ limit) (taken : List Nat) (n : Nat) :
    ((freeBelow limit taken).take n).countP (· < s) = min n (freeBelow s taken).length := by
  obtain ⟨d, rfl⟩ := Nat.exists_eq_add_of_le hs
  have hsplit : freeBelow (s + d) taken
      = freeBelow s taken ++ ((List.range d).map (s + ·)).filter (· ∉ taken) := by
    rw [freeBelow, freeBelow, List.range_add, List.filter_append]
  -- the free positions below `s` come first, and all others are above it
  have hlow : ∀ i ∈ (freeBelow s taken).take n, decide (i < s) = true := by
    intro i hi
    have hmem := (List.mem_filter.1 (List.mem_of_mem_take hi)).1
    exact decide_eq_true (List.mem_range.1 hmem)
  have hhigh : ∀ i ∈ (((List.range d).map (s + ·)).filter (· ∉ taken)).take
      (n - (freeBelow s taken).length), ¬ decide (i < s) = true := by
    intro i hi
    obtain ⟨j, -, rfl⟩ := List.mem_map.1 (List.mem_filter.1 (List.mem_of_mem_take hi)).1
    simp
  rw [hsplit, List.take_append, List.countP_append, List.countP_eq_length.2 hlow,
    List.countP_eq_zero.2 hhigh, List.length_take, Nat.add_zero]

/-! ## Entries on the free positions -/

/-- Entries on the free positions in turn, as far as there are enough. -/
def reseated (limit : Nat) (taken : List Nat) (entries : List Slot) : List Slot :=
  ((freeBelow limit taken).zip entries).map fun (i, e) => { e with index := i }

theorem mem_reseated {taken : List Nat} {entries : List Slot} {x : Slot}
    (hx : x ∈ reseated limit taken entries) :
    x.index < limit ∧ x.index ∉ taken ∧
      ∃ e ∈ entries, x.device = e.device ∧ x.binding = e.binding := by
  obtain ⟨⟨i, e⟩, hpair, rfl⟩ := List.mem_map.1 hx
  obtain ⟨hi, he⟩ := List.of_mem_zip hpair
  obtain ⟨hlt, hfree⟩ := List.mem_filter.1 hi
  exact ⟨List.mem_range.1 hlt, of_decide_eq_true hfree, e, he, rfl, rfl⟩

/-- Entries whose own positions are taken or out of range get the free ones in turn. -/
theorem foldl_seat_eq_append {entries : List Slot}
    (h : ∀ e ∈ entries, e.index < limit → e.index ∈ indices table) :
    entries.foldl (seat limit) table = table ++ reseated limit (indices table) entries := by
  -- each entry in turn takes the head of the free positions and leaves the tail to the others
  induction entries generalizing table with
  | nil => simp [reseated]
  | cons e entries ih =>
    have hlowest : position? limit table e = (freeBelow limit (indices table)).head? := by
      rw [← lowestFree?_eq_head?, position?, if_neg]
      exact fun hown => hown.2 (h e (List.mem_cons_self ..) hown.1)
    have hothers : ∀ f ∈ entries, f.index < limit → f.index ∈ indices (seat limit table e) :=
      fun f hf hlt =>
        ((prefix_foldl_seat limit table [e]).map _).subset (h f (List.mem_cons_of_mem e hf) hlt)
    rw [List.foldl_cons, ih hothers]
    cases hfree : freeBelow limit (indices table) with
    | nil =>
      rw [hfree, List.head?_nil] at hlowest
      have hstay : seat limit table e = table := by simp [seat, hlowest]
      simp [hstay, reseated, hfree]
    | cons i rest =>
      rw [hfree, List.head?_cons] at hlowest
      have hseat : seat limit table e = table ++ [{ e with index := i }] := by
        simp [seat, hlowest]
      have hrest : freeBelow limit (indices (seat limit table e)) = rest := by
        rw [hseat, indices, List.map_append]
        exact freeBelow_append_head hfree
      rw [reseated, hrest, hseat, reseated, hfree, List.zip_cons_cons, List.map_cons,
        List.append_assoc, List.singleton_append]

/-! ## Newcomers on the free positions -/

/-- Devices on the free positions in turn, as far as there are enough. -/
def arrivals (limit : Nat) (provider : Provider) (taken : List Nat) (ds : List Device) :
    List Slot :=
  ((freeBelow limit taken).zip ds).map fun (i, d) => ⟨i, d.id, provider.binding d.name⟩

theorem indices_arrivals (limit : Nat) (provider : Provider) (taken : List Nat)
    (ds : List Device) :
    indices (arrivals limit provider taken ds) = (freeBelow limit taken).take ds.length := by
  rw [indices, arrivals, List.map_map]
  show ((freeBelow limit taken).zip ds).map Prod.fst = _
  rw [List.zip_eq_zip_take_min, List.map_fst_zip (by simp), List.take_eq_take_iff]
  omega

theorem devices_arrivals (limit : Nat) (provider : Provider) (taken : List Nat)
    (ds : List Device) :
    devices (arrivals limit provider taken ds)
      = (ds.map (·.id)).take (freeBelow limit taken).length := by
  have hids : devices (arrivals limit provider taken ds)
      = (((freeBelow limit taken).zip ds).map Prod.snd).map (·.id) := by
    rw [devices, arrivals, List.map_map, List.map_map]
    rfl
  rw [hids, List.zip_eq_zip_take_min, List.map_snd_zip (by simp), List.map_take,
    List.take_eq_take_iff, List.length_map]
  omega

theorem indices_arrivals_ascending (limit : Nat) (provider : Provider) (taken : List Nat)
    (ds : List Device) :
    (indices (arrivals limit provider taken ds)).Pairwise (· < ·) := by
  rw [indices_arrivals]
  exact (List.pairwise_lt_range.filter _).sublist (List.take_sublist _ _)

theorem foldl_welcome_eq_append (limit : Nat) (provider : Provider) (table : List Slot)
    (ds : List Device) :
    ds.foldl (welcome limit provider) table
      = table ++ arrivals limit provider (indices table) ds := by
  -- the entries of newcomers are out of range
  rw [foldl_welcome, foldl_seat_eq_append, arrivals, reseated, List.zip_map_right, List.map_map]
  · rfl
  · intro e he hlt
    obtain ⟨d, -, rfl⟩ := List.mem_map.1 he
    exact absurd hlt (Nat.lt_irrefl limit)

/-! ## The placement without a fold -/

theorem slots_place_eq_append (connected : List Device) (saved : List Slot) (limit : Nat)
    (provider : Provider) :
    (place connected saved limit provider).slots =
      sort (seated connected saved limit ++ arrivals limit provider
        (indices (seated connected saved limit))
        (place connected saved limit provider).newcomers) := by
  rw [slots_place, placed, ← foldl_welcome, foldl_welcome_eq_append]

theorem slots_place_of_wellFormed (h : WellFormed limit saved) (connected : List Device)
    (provider : Provider) :
    (place connected saved limit provider).slots =
      sort (known connected saved ++ arrivals limit provider (indices (known connected saved))
        (place connected saved limit provider).newcomers) := by
  rw [slots_place_eq_append, seated_of_wellFormed h]

theorem devices_arrivals_newcomers (h : WellFormed limit saved) (connected : List Device)
    (provider : Provider) :
    devices (arrivals limit provider (indices (known connected saved))
      (place connected saved limit provider).newcomers)
        = (place connected saved limit provider).newcomers.map (·.id) := by
  have hspread := spread_known h connected
  have hfree := length_freeBelow_add hspread.unshared limit
  have htaken : (indices (known connected saved)).countP (· < limit)
      = (known connected saved).length := by
    rw [List.countP_eq_length.2 fun i hi => decide_eq_true (hspread.below i hi), List.length_map]
  -- newcomers are cut off where the free positions end, so each of them gets one
  have hfit : (place connected saved limit provider).newcomers.length
      ≤ limit - (known connected saved).length := by
    rw [newcomers_place_of_wellFormed h, List.length_take]
    exact Nat.min_le_left _ _
  rw [devices_arrivals, List.take_of_length_le]
  rw [List.length_map]
  omega

end PlayerSlots.Slot
