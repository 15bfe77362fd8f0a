import Mathlib.Data.List.Sort
import PlayerSlots.Slot.Color

/-! # Tables of slots

The order of a table, the lookups in it and its free positions.

* `Slot.Spread limit table`: no position is shared and each is below the limit, in whatever order
  the slots stand. `Spread.full_iff` counts: every position is taken iff there are `limit` slots.
* `Spread.wellFormed_sort`: sorting makes a sound table of a spread one with sound ids.
* `ofDevice?_eq_some_iff`, `atIndex?_eq_some_iff`: in a sound table both lookups find every slot.
* `lowestFree?_eq_some_iff`, `lowestFree?_eq_none_iff`: the lowest free position, and when there is
  none.
* `firstPer` keeps every key once (`mem_keys_firstPer`, `keys_firstPer_nodup`), in the order in which
  they first occur, and is the identity on a list that has each key once.
-/

namespace PlayerSlots.Slot
set_option autoImplicit false

variable {limit : Nat} {table : List Slot}

/-! ## Order -/

theorem sort_perm (table : List Slot) : (sort table).Perm table := List.mergeSort_perm _ _

@[simp] theorem mem_sort {s : Slot} : s ∈ sort table ↔ s ∈ table := (sort_perm table).mem_iff

@[simp] theorem length_sort (table : List Slot) : (sort table).length = table.length :=
  (sort_perm table).length_eq

theorem index_le_trans (a b c : Slot) (hab : decide (a.index ≤ b.index) = true)
    (hbc : decide (b.index ≤ c.index) = true) : decide (a.index ≤ c.index) = true :=
  decide_eq_true (Nat.le_trans (of_decide_eq_true hab) (of_decide_eq_true hbc))

theorem index_le_total (a b : Slot) :
    (decide (a.index ≤ b.index) || decide (b.index ≤ a.index)) = true := by
  simpa using Nat.le_total a.index b.index

theorem indices_sort_pairwise (table : List Slot) : (indices (sort table)).Pairwise (· ≤ ·) := by
  have h : (sort table).Pairwise (fun s t => decide (s.index ≤ t.index) = true) :=
    List.pairwise_mergeSort index_le_trans index_le_total table
  rw [List.pairwise_map]
  exact h.imp of_decide_eq_true

theorem sort_map {f : Slot → Slot} (hf : ∀ s, (f s).index = s.index) (table : List Slot) :
    sort (table.map f) = (sort table).map f := by
  refine (List.map_mergeSort ?_).symm
  intro s _ t _
  rw [hf, hf]

/-- A table whose positions ascend is in order already. -/
theorem sort_eq_self (h : (indices table).Pairwise (· < ·)) : sort table = table := by
  apply List.mergeSort_of_pairwise
  rw [List.pairwise_map] at h
  exact h.imp fun hlt => decide_eq_true (Nat.le_of_lt hlt)

/-- Tables with the same slots, both in order, are equal. -/
theorem eq_of_perm_of_ascending {t u : List Slot} (hperm : t.Perm u)
    (ht : (indices t).Pairwise (· < ·)) (hu : (indices u).Pairwise (· < ·)) : t = u := by
  rw [List.pairwise_map] at ht hu
  exact hperm.eq_of_pairwise (fun _ _ _ _ hab hba => absurd hab (Nat.lt_asymm hba)) ht hu

theorem indices_filter_ascending (h : (indices table).Pairwise (· < ·)) (p : Slot → Bool) :
    (indices (table.filter p)).Pairwise (· < ·) :=
  h.sublist (List.filter_sublist.map _)

/-- As many slots stand before a slot as there are lower positions in the table. -/
theorem countP_lt_index (h : (indices table).Pairwise (· < ·)) {p : Nat} {x : Slot}
    (hp : table[p]? = some x) : (indices table).countP (· < x.index) = p := by
  induction table generalizing p with
  | nil => cases hp
  | cons y table ih =>
    obtain ⟨hfirst, hrest⟩ := List.pairwise_cons.1 h
    cases p with
    | zero =>
      cases hp
      rw [indices, List.map_cons, List.countP_cons_of_neg (by simp), List.countP_eq_zero]
      intro i hi
      have hlt := hfirst i hi
      simpa using hlt.le
    | succ p =>
      have hx : x ∈ table := List.mem_of_getElem? hp
      have hlt : y.index < x.index := hfirst x.index (List.mem_map_of_mem hx)
      rw [indices, List.map_cons, List.countP_cons_of_pos (by simpa using hlt), ih hrest hp]

/-! ## The first element for each key -/

section FirstPer
variable {α κ : Type} [DecidableEq κ] (key : α → κ)

theorem firstPer_sublist (l : List α) : (firstPer key l).Sublist l := by
  induction l with
  | nil => exact List.Sublist.refl _
  | cons a l ih => exact (List.filter_sublist.trans ih).cons_cons a

theorem mem_keys_firstPer {l : List α} {k : κ} :
    k ∈ (firstPer key l).map key ↔ k ∈ l.map key := by
  induction l with
  | nil => rfl
  | cons a l ih =>
    by_cases hk : k = key a
    · simp [firstPer, hk]
    · rw [firstPer, List.map_cons, List.map_cons, List.mem_cons, List.mem_cons, ← ih]
      simp only [hk, false_or, List.mem_map, List.mem_filter, decide_eq_true_eq]
      constructor
      · rintro ⟨b, ⟨hb, -⟩, rfl⟩
        exact ⟨b, hb, rfl⟩
      · rintro ⟨b, hb, rfl⟩
        exact ⟨b, ⟨hb, hk⟩, rfl⟩

theorem keys_firstPer_nodup (l : List α) : ((firstPer key l).map key).Nodup := by
  induction l with
  | nil => exact List.nodup_nil
  | cons a l ih =>
    rw [firstPer, List.map_cons, List.nodup_cons]
    refine ⟨?_, (List.filter_sublist.map key).nodup ih⟩
    simp

theorem firstPer_eq_self {l : List α} (h : (l.map key).Nodup) : firstPer key l = l := by
  induction l with
  | nil => rfl
  | cons a l ih =>
    rw [List.map_cons, List.nodup_cons] at h
    rw [firstPer, ih h.2, List.filter_eq_self.2]
    intro b hb
    exact decide_eq_true fun he => h.1 (he ▸ List.mem_map_of_mem hb)

/-- The element that is kept for its key is the one that a search for the key finds. -/
theorem find?_of_mem_firstPer {l : List α} {a : α} (ha : a ∈ firstPer key l) :
    l.find? (key · = key a) = some a := by
  induction l with
  | nil => cases ha
  | cons b l ih =>
    rcases List.mem_cons.1 ha with rfl | ha
    · rw [List.find?_cons_of_pos (by simp)]
    · obtain ⟨ha, hne⟩ := List.mem_filter.1 ha
      have hba : key b ≠ key a := (of_decide_eq_true hne).symm
      rw [List.find?_cons_of_neg (by simpa using hba), ih ha]

/-- An element is kept iff it is the first with its key. -/
theorem mem_firstPer_iff {l : List α} {a : α} :
    a ∈ firstPer key l ↔ l.find? (key · = key a) = some a := by
  refine ⟨find?_of_mem_firstPer key, fun h => ?_⟩
  induction l with
  | nil => cases h
  | cons b l ih =>
    rw [firstPer]
    by_cases hb : key b = key a
    · rw [List.find?_cons_of_pos (by simpa using hb)] at h
      cases h
      exact List.mem_cons_self ..
    · rw [List.find?_cons_of_neg (by simpa using hb)] at h
      exact List.mem_cons_of_mem _ (List.mem_filter.2 ⟨ih h, decide_eq_true (Ne.symm hb)⟩)

theorem firstPer_eq_filter [DecidableEq α] {l : List α} (h : l.Nodup) :
    firstPer key l = l.filter fun a => l.find? (key · = key a) = some a := by
  induction l with
  | nil => rfl
  | cons b l ih =>
    obtain ⟨hout, hrest⟩ := List.nodup_cons.1 h
    rw [firstPer, ih hrest, List.filter_cons_of_pos (by simp), List.filter_filter]
    congr 1
    apply List.filter_congr
    intro a ha
    by_cases hb : key b = key a
    · have hne : b ≠ a := fun he => hout (he ▸ ha)
      simp [hb, hne]
    · simp [hb, Ne.symm hb]

/-- Which keys are kept depends on the keys alone. -/
theorem keys_firstPer (l : List α) : (firstPer key l).map key = firstPer id (l.map key) := by
  induction l with
  | nil => rfl
  | cons a l ih =>
    rw [firstPer, List.map_cons, List.map_cons, firstPer, ← ih, List.filter_map]
    rfl

/-- Whether elements are dropped by their keys before or after makes no difference. -/
theorem firstPer_filter (p : κ → Bool) (l : List α) :
    firstPer key (l.filter fun a => p (key a)) = (firstPer key l).filter fun a => p (key a) := by
  induction l with
  | nil => rfl
  | cons b l ih =>
    by_cases hb : p (key b) = true
    · simp only [firstPer, List.filter_cons, hb, ↓reduceIte, ih]
      rw [List.filter_comm]
    · simp only [firstPer, List.filter_cons, hb, Bool.false_eq_true, ↓reduceIte, ih,
        List.filter_filter]
      apply List.filter_congr
      intro a _
      by_cases hab : key a = key b
      · simp [hab, hb]
      · simp [hab]

/-- An element in front of which its key occurs makes no difference. -/
theorem firstPer_append_cons {l : List α} {a : α} (h : key a ∈ l.map key) (rest : List α) :
    firstPer key (l ++ a :: rest) = firstPer key (l ++ rest) := by
  induction l with
  | nil => cases h
  | cons b l ih =>
    rw [List.cons_append, List.cons_append, firstPer, firstPer]
    congr 1
    by_cases hb : key a = key b
    · -- what follows is searched for other keys only
      rw [← firstPer_filter key (· ≠ key b), ← firstPer_filter key (· ≠ key b),
        List.filter_append, List.filter_append, List.filter_cons_of_neg (by simp [hb])]
    · rw [ih ((List.mem_cons.1 h).resolve_left hb)]

/-- The kept elements stand in the order in which their keys first occur. -/
theorem firstPer_pairwise (l : List α) :
    (firstPer key l).Pairwise fun a b => (l.map key).idxOf (key a) < (l.map key).idxOf (key b) := by
  induction l with
  | nil => exact List.Pairwise.nil
  | cons c l ih =>
    have hshift : ∀ a, key a ≠ key c →
        ((c :: l).map key).idxOf (key a) = (l.map key).idxOf (key a) + 1 := fun a ha => by
      rw [List.map_cons, List.idxOf_cons_ne _ ha.symm]
    rw [firstPer, List.pairwise_cons]
    constructor
    · intro a ha
      rw [hshift a (of_decide_eq_true (List.mem_filter.1 ha).2), List.map_cons, List.idxOf_cons_self]
      exact Nat.succ_pos _
    · refine (ih.sublist List.filter_sublist).imp_of_mem fun {a b} ha hb hab => ?_
      rw [hshift a (of_decide_eq_true (List.mem_filter.1 ha).2),
        hshift b (of_decide_eq_true (List.mem_filter.1 hb).2)]
      omega

end FirstPer

/-! ## Lookups -/

/-- A search by a key that no two elements share finds every element. -/
theorem find?_key_eq_some_iff {α κ : Type} [BEq κ] [LawfulBEq κ] (key : α → κ) {l : List α}
    (h : (l.map key).Nodup) {k : κ} {a : α} :
    l.find? (key · == k) = some a ↔ a ∈ l ∧ key a = k := by
  constructor
  · intro hf
    exact ⟨List.mem_of_find?_eq_some hf, by simpa using List.find?_some hf⟩
  · rintro ⟨ha, rfl⟩
    obtain ⟨b, hb⟩ : ∃ b, l.find? (key · == key a) = some b :=
      Option.isSome_iff_exists.1 (List.find?_isSome.2 ⟨a, ha, by simp⟩)
    have hkey : key b = key a := by simpa using List.find?_some hb
    rw [hb, List.inj_on_of_nodup_map h (List.mem_of_find?_eq_some hb) ha hkey]

/-- A search by key does not see which later elements are dropped. -/
theorem find?_firstPer {α κ : Type} [DecidableEq κ] (key : α → κ) (l : List α) (k : κ) :
    (firstPer key l).find? (key · = k) = l.find? (key · = k) := by
  cases h : l.find? (key · = k) with
  | none =>
    rw [List.find?_eq_none] at h ⊢
    exact fun a ha => h a ((firstPer_sublist key l).subset ha)
  | some a =>
    obtain rfl : key a = k := by simpa using List.find?_some h
    exact (find?_key_eq_some_iff key (keys_firstPer_nodup key l)).2
      ⟨(mem_firstPer_iff key).2 h, rfl⟩

theorem ofDevice?_eq_some_iff (h : (devices table).Nodup) {d : String} {s : Slot} :
    ofDevice? table d = some s ↔ s ∈ table ∧ s.device = d :=
  find?_key_eq_some_iff Slot.device h

theorem atIndex?_eq_some_iff (h : (indices table).Nodup) {i : Nat} {s : Slot} :
    atIndex? table i = some s ↔ s ∈ table ∧ s.index = i :=
  find?_key_eq_some_iff Slot.index h

theorem mem_of_ofDevice? {d : String} {s : Slot} (h : ofDevice? table d = some s) :
    s ∈ table ∧ s.device = d :=
  ⟨List.mem_of_find?_eq_some h, by simpa using List.find?_some h⟩

theorem isSome_ofDevice? (table : List Slot) (d : String) :
    (ofDevice? table d).isSome ↔ d ∈ devices table := by
  simp [ofDevice?, List.find?_isSome]

/-! ## The lowest free position -/

theorem lowestFree?_eq_some_iff {taken : List Nat} {i : Nat} :
    lowestFree? taken limit = some i ↔ i < limit ∧ i ∉ taken ∧ ∀ j < i, j ∈ taken := by
  have hfound : lowestFree? taken limit = some i ↔
      i ∉ taken ∧ i < min limit (taken.length + 1) ∧ ∀ j < i, j ∈ taken := by
    simp [lowestFree?, List.find?_range_eq_some]
  rw [hfound]
  constructor
  · rintro ⟨hfree, hi, hbelow⟩
    exact ⟨by omega, hfree, hbelow⟩
  · rintro ⟨hi, hfree, hbelow⟩
    -- the taken positions below `i` are at most as many as all taken ones
    have hle : (List.range i).length ≤ taken.length :=
      List.nodup_range.length_le_of_subset fun j hj => hbelow j (List.mem_range.1 hj)
    rw [List.length_range] at hle
    exact ⟨hfree, by omega, hbelow⟩

theorem lowestFree?_eq_none_iff {taken : List Nat} :
    lowestFree? taken limit = none ↔ ∀ i < limit, i ∈ taken := by
  constructor
  · intro h i hi
    by_contra hfree
    classical
    -- the least free position would have been found
    have hex : ∃ j, j < limit ∧ j ∉ taken := ⟨i, hi, hfree⟩
    have hleast : lowestFree? taken limit = some (Nat.find hex) := by
      refine lowestFree?_eq_some_iff.2 ⟨(Nat.find_spec hex).1, (Nat.find_spec hex).2, ?_⟩
      intro j hj
      by_contra hfreej
      exact Nat.find_min hex hj ⟨hj.trans (Nat.find_spec hex).1, hfreej⟩
    rw [h] at hleast
    cases hleast
  · intro h
    cases hf : lowestFree? taken limit with
    | none => rfl
    | some i =>
      obtain ⟨hi, hfree, -⟩ := lowestFree?_eq_some_iff.1 hf
      exact absurd (h i hi) hfree

/-! ## Spread tables -/

/-- No two slots share a position and every position is below the limit. -/
structure Spread (limit : Nat) (table : List Slot) : Prop where
  unshared : (indices table).Nodup
  below : ∀ i ∈ indices table, i < limit

namespace Spread

theorem nil (limit : Nat) : Spread limit [] := ⟨List.nodup_nil, by simp⟩

theorem length_le (h : Spread limit table) : table.length ≤ limit := by
  have hle := h.unshared.length_le_of_subset fun i hi => List.mem_range.2 (h.below i hi)
  simpa using hle

/-- Every position is taken iff there are as many slots as positions. -/
theorem full_iff (h : Spread limit table) :
    (∀ i < limit, i ∈ indices table) ↔ table.length = limit := by
  constructor
  · intro hall
    have hge := List.nodup_range.length_le_of_subset fun i hi => hall i (List.mem_range.1 hi)
    rw [List.length_range, List.length_map] at hge
    exact Nat.le_antisymm h.length_le hge
  · intro hlen i hi
    have hsub : (indices table).Subperm (List.range limit) :=
      List.subperm_of_subset h.unshared fun i hi => List.mem_range.2 (h.below i hi)
    have hperm := hsub.perm_of_length_le (by simp [hlen])
    exact hperm.mem_iff.2 (List.mem_range.2 hi)

/-- Sorting makes a sound table if the ids are sound. -/
theorem wellFormed_sort (h : Spread limit table) (hpresent : ∀ d ∈ devices table, d ≠ "")
    (hdistinct : (devices table).Nodup) : WellFormed limit (sort table) where
  ascending := by
    have hnodup : (indices (sort table)).Nodup :=
      ((sort_perm table).map _).nodup_iff.2 h.unshared
    exact (indices_sort_pairwise table).imp₂ (fun _ _ hle hne => Nat.lt_of_le_of_ne hle hne) hnodup
  below i hi := h.below i (((sort_perm table).map _).mem_iff.1 hi)
  present d hd := hpresent d (((sort_perm table).map _).mem_iff.1 hd)
  distinct := ((sort_perm table).map _).nodup_iff.2 hdistinct

end Spread

/-! ## Sound tables -/

namespace WellFormed

theorem spread (h : WellFormed limit table) : Spread limit table :=
  ⟨h.ascending.imp Nat.ne_of_lt, h.below⟩

theorem mono {limit' : Nat} (h : WellFormed limit table) (hle : limit ≤ limit') :
    WellFormed limit' table :=
  { h with below := fun i hi => (h.below i hi).trans_le hle }

theorem sort_eq (h : WellFormed limit table) : sort table = table := sort_eq_self h.ascending

theorem indices_eq_range (h : WellFormed limit table) (hfull : table.length = limit) :
    indices table = List.range limit := by
  have hperm : (indices table).Perm (List.range limit) := by
    rw [List.perm_ext_iff_of_nodup h.spread.unshared List.nodup_range]
    intro i
    rw [List.mem_range]
    exact ⟨h.below i, h.spread.full_iff.2 hfull i⟩
  have hasc : ∀ i j : Nat, i ∈ indices table → j ∈ List.range limit → i < j → j < i → i = j :=
    fun i j _ _ hij hji => absurd hij (Nat.lt_asymm hji)
  exact hperm.eq_of_pairwise hasc h.ascending List.pairwise_lt_range

/-- A slot is known by its device. -/
theorem eq_of_device_eq (h : WellFormed limit table) {s t : Slot} (hs : s ∈ table) (ht : t ∈ table)
    (hd : s.device = t.device) : s = t :=
  List.inj_on_of_nodup_map h.distinct hs ht hd

/-- A slot is known by its position. -/
theorem eq_of_index_eq (h : WellFormed limit table) {s t : Slot} (hs : s ∈ table) (ht : t ∈ table)
    (hi : s.index = t.index) : s = t :=
  List.inj_on_of_nodup_map h.spread.unshared hs ht hi

/-- No more slots stand before a slot than there are positions below its own. -/
theorem place_le_index (h : WellFormed limit table) {p : Nat} {s : Slot} (hs : table[p]? = some s) :
    p ≤ s.index := by
  induction p generalizing s with
  | zero => exact Nat.zero_le _
  | succ p ih =>
    obtain ⟨hp, rfl⟩ := List.getElem?_eq_some_iff.1 hs
    have hprev : p ≤ (table[p]).index := ih (List.getElem?_eq_getElem (by omega))
    have hlt : (table[p]).index < (table[p + 1]).index := by
      have := List.pairwise_iff_getElem.1 (List.pairwise_map.1 h.ascending) p (p + 1) (by omega) hp
      exact this (by omega)
    omega

/-- A slot is among the first ones only at its own place. -/
theorem mem_take_iff (h : WellFormed limit table) {p : Nat} {s : Slot} (hs : table[p]? = some s)
    (k : Nat) : s ∈ table.take k ↔ p < k := by
  obtain ⟨hp, rfl⟩ := List.getElem?_eq_some_iff.1 hs
  rw [List.mem_take_iff_getElem]
  constructor
  · rintro ⟨q, hq, heq⟩
    have hnodup : table.Nodup := List.Nodup.of_map _ h.distinct
    have hqp : q = p := (hnodup.getElem_inj_iff).1 heq
    omega
  · intro hlt
    exact ⟨p, by omega, rfl⟩

/-- The slots stand in the order of their positions. -/
theorem place_lt_iff (h : WellFormed limit table) {p q : Nat} {s t : Slot}
    (hs : table[p]? = some s) (ht : table[q]? = some t) : p < q ↔ s.index < t.index := by
  obtain ⟨hp, rfl⟩ := List.getElem?_eq_some_iff.1 hs
  obtain ⟨hq, rfl⟩ := List.getElem?_eq_some_iff.1 ht
  have hasc := List.pairwise_iff_getElem.1 (List.pairwise_map.1 h.ascending)
  constructor
  · exact hasc p q hp hq
  · intro hlt
    by_contra hge
    rcases Nat.lt_or_eq_of_le (Nat.le_of_not_lt hge) with hqp | rfl
    · exact absurd (hasc q p hq hp hqp) (Nat.lt_asymm hlt)
    · exact Nat.lt_irrefl _ hlt

end WellFormed

end PlayerSlots.Slot
