import Mathlib
import PlayerSlots.Proofs.Slot.FreePositions

/-! # Where renumbering puts a slot

Renumbering sorts first and then counts. So the new position of a slot is the number of slots that
go before it: those with a smaller position, and of those with the same position the ones that stand
earlier.

* `rank`: this number, for the slot at a place; `rank_lt_rank_iff` is the order that it makes.
* `getElem?_sort_rank`: sorting puts the slot at its rank, by induction over the table.
* `compact_compact`: a second renumbering changes nothing.
* `compact_renumbers_in_order`: the whole outcome, for any list of slots.
-/

namespace PlayerSlots.Slot
set_option autoImplicit false

variable {table : List Slot} {s t : Slot} {p q : Nat}

/-! ## Ranks -/

/-- How many slots of a table go before its slot `s` at place `p`: those with a smaller position,
and the earlier ones with the same. -/
def rank (table : List Slot) (p : Nat) (s : Slot) : Nat :=
  (indices table).countP (· < s.index) + ((indices table).take p).count s.index

theorem rank_cons_zero (s : Slot) (table : List Slot) :
    rank (s :: table) 0 s = (indices table).countP (· < s.index) := by
  simp [rank]

/-- A slot in front goes before those that have no smaller position. -/
theorem rank_cons_succ (s : Slot) (table : List Slot) (p : Nat) (t : Slot) :
    rank (s :: table) (p + 1) t = rank table p t + if s.index ≤ t.index then 1 else 0 := by
  simp only [rank, indices, List.map_cons, List.countP_cons, List.take_succ_cons, List.count_cons,
    decide_eq_true_eq, beq_iff_eq]
  split_ifs <;> omega

theorem count_take_succ (hs : table[p]? = some s) :
    ((indices table).take (p + 1)).count s.index
      = ((indices table).take p).count s.index + 1 := by
  have hindex : (indices table)[p]? = some s.index := by rw [List.getElem?_map, hs]; rfl
  rw [List.take_add_one, hindex, List.count_append]
  simp

theorem countP_lt_add_count_le {i j : Nat} (hij : i < j) (l : List Nat) :
    l.countP (· < i) + l.count i ≤ l.countP (· < j) := by
  induction l with
  | nil => simp
  | cons k l ih =>
    rw [List.countP_cons, List.countP_cons, List.count_cons]
    simp only [decide_eq_true_eq, beq_iff_eq]
    split_ifs <;> omega

theorem rank_lt_rank (hs : table[p]? = some s)
    (h : s.index < t.index ∨ s.index = t.index ∧ p < q) : rank table p s < rank table q t := by
  have hown := count_take_succ hs
  unfold rank
  rcases h with hlt | ⟨heq, hpq⟩
  · -- all slots at the smaller position go before `t`, and `s` is one of them
    have hall : ((indices table).take (p + 1)).count s.index ≤ (indices table).count s.index :=
      (List.take_sublist _ _).count_le _
    have hbelow := countP_lt_add_count_le hlt (indices table)
    omega
  · -- the slots up to place `p` stand before place `q`
    have hearlier : ((indices table).take (p + 1)).count s.index
        ≤ ((indices table).take q).count s.index :=
      (List.take_sublist_take_left hpq).count_le _
    rw [← heq]
    omega

/-- Ranks follow the positions, and for equal positions the places. -/
theorem rank_lt_rank_iff (hs : table[p]? = some s) (ht : table[q]? = some t) :
    rank table p s < rank table q t ↔ s.index < t.index ∨ s.index = t.index ∧ p < q := by
  refine ⟨fun hlt => ?_, rank_lt_rank hs⟩
  by_contra hnot
  by_cases hback : t.index < s.index ∨ t.index = s.index ∧ q < p
  · exact Nat.lt_asymm hlt (rank_lt_rank ht hback)
  · -- neither goes before the other, so they are one slot
    obtain rfl : p = q := by omega
    obtain rfl : s = t := Option.some.inj (hs.symm.trans ht)
    exact Nat.lt_irrefl _ hlt

theorem rank_of_nodup (h : (indices table).Nodup) (hs : table[p]? = some s) :
    rank table p s = (indices table).countP (· < s.index) := by
  have hown := count_take_succ hs
  have hall : ((indices table).take (p + 1)).count s.index ≤ (indices table).count s.index :=
    (List.take_sublist _ _).count_le _
  -- the slot itself is the only one at its position, so none goes before it there
  have hone := List.nodup_iff_count_le_one.1 h s.index
  unfold rank
  omega

/-! ## Sorting by rank -/

/-- A slot in front is sorted in behind the smaller positions and before all others. -/
theorem exists_sort_cons (s : Slot) (table : List Slot) :
    ∃ before after, sort (s :: table) = before ++ s :: after ∧ sort table = before ++ after ∧
      (∀ x ∈ before, x.index < s.index) ∧ ∀ x ∈ after, s.index ≤ x.index := by
  obtain ⟨before, after, hcons, hrest, hbefore⟩ :=
    List.mergeSort_cons index_le_trans index_le_total s table
  refine ⟨before, after, hcons, hrest, ?_, ?_⟩
  · intro x hx
    simpa using hbefore x hx
  · have hsorted := indices_sort_pairwise (s :: table)
    rw [List.pairwise_map, show sort (s :: table) = _ from hcons, List.pairwise_append,
      List.pairwise_cons] at hsorted
    exact hsorted.2.1.1

theorem getElem?_sort_head (s : Slot) (table : List Slot) :
    (sort (s :: table))[(indices table).countP (· < s.index)]? = some s := by
  obtain ⟨before, after, hcons, hrest, hbefore, hafter⟩ := exists_sort_cons s table
  have hcount : (indices table).countP (· < s.index) = before.length := by
    rw [← ((sort_perm table).map _).countP_eq, hrest, List.map_append, List.countP_append,
      List.countP_eq_length.2, List.countP_eq_zero.2, List.length_map, Nat.add_zero]
    · simpa using hafter
    · simpa using hbefore
  rw [hcount, hcons, List.getElem?_append_right (Nat.le_refl _), Nat.sub_self]
  rfl

/-- A slot in front moves those up by one that have no smaller position. -/
theorem getElem?_sort_cons (s : Slot) {r : Nat} (ht : (sort table)[r]? = some t) :
    (sort (s :: table))[r + if s.index ≤ t.index then 1 else 0]? = some t := by
  obtain ⟨before, after, hcons, hrest, hbefore, hafter⟩ := exists_sort_cons s table
  rw [hrest] at ht
  rw [hcons]
  by_cases hr : r < before.length
  · rw [List.getElem?_append_left hr] at ht
    have hlt := hbefore t (List.mem_of_getElem? ht)
    rw [if_neg (by omega), Nat.add_zero, List.getElem?_append_left hr, ht]
  · rw [List.getElem?_append_right (by omega)] at ht
    have hle := hafter t (List.mem_of_getElem? ht)
    have hshift : r + 1 - before.length = r - before.length + 1 := by omega
    rw [if_pos hle, List.getElem?_append_right (by omega), hshift, List.getElem?_cons_succ, ht]

theorem getElem?_sort_rank (hs : table[p]? = some s) : (sort table)[rank table p s]? = some s := by
  induction table generalizing p with
  | nil => cases hs
  | cons x table ih =>
    cases p with
    | zero =>
      obtain rfl : x = s := Option.some.inj hs
      rw [rank_cons_zero]
      exact getElem?_sort_head x table
    | succ p =>
      rw [rank_cons_succ]
      exact getElem?_sort_cons x (ih hs)

/-! ## Renumbering -/

theorem getElem?_compact_rank (hs : table[p]? = some s) :
    (compact table)[rank table p s]? = some { s with index := rank table p s } := by
  rw [compact, getElem?_numberFrom, getElem?_sort_rank hs, Nat.zero_add]
  rfl

theorem compact_compact (table : List Slot) : compact (compact table) = compact table := by
  refine List.ext_getElem? fun p => ?_
  rw [getElem?_compact (indices_compact_ascending table), compact, getElem?_numberFrom,
    Option.map_map, Nat.zero_add]
  rfl

/-- Renumbering any list of slots keeps each device with its binding and numbers them from zero.
Each slot ends at its rank, so they stand in the order of their old positions, and those of one
position as they stood. A second time changes nothing. Where no position is shared, each slot gets
the number of those below it, which is its old position at most. -/
theorem compact_renumbers_in_order (table : List Slot) :
    (occupants (compact table)).Perm (occupants table) ∧
    indices (compact table) = List.range table.length ∧
    (∀ p s, table[p]? = some s →
      (compact table)[rank table p s]? = some { s with index := rank table p s }) ∧
    (∀ p s q t, table[p]? = some s → table[q]? = some t →
      (rank table p s < rank table q t ↔ s.index < t.index ∨ s.index = t.index ∧ p < q)) ∧
    compact (compact table) = compact table ∧
    ((indices table).Nodup → ∀ p s, table[p]? = some s →
      rank table p s = (indices table).countP (· < s.index) ∧ rank table p s ≤ s.index) := by
  refine ⟨occupants_compact_perm table, indices_compact table, fun p s => getElem?_compact_rank,
    fun p s q t => rank_lt_rank_iff, compact_compact table, ?_⟩
  intro hnodup p s hs
  have hrank := rank_of_nodup hnodup hs
  have hgaps := length_freeBelow_add hnodup s.index
  exact ⟨hrank, by omega⟩

/-- A list with two positions held twice, where one device stands twice, and a list out of order
with gaps. -/
theorem compact_renumbers_in_order_tied :
    let pad : Binding := .keyboard ⟨.pro, .empty⟩
    let single : Binding := .keyboard ⟨.handheld, .empty⟩
    let tied : List Slot := [⟨3, "c", pad⟩, ⟨1, "a", pad⟩, ⟨3, "b", pad⟩, ⟨1, "c", single⟩]
    let apart : List Slot := [⟨5, "b", pad⟩, ⟨0, "a", single⟩, ⟨2, "new", pad⟩]
    (compact tied = [⟨0, "a", pad⟩, ⟨1, "c", single⟩, ⟨2, "c", pad⟩, ⟨3, "b", pad⟩] ∧
      (occupants (compact tied)).Perm (occupants tied) ∧
      tied[2]? = some ⟨3, "b", pad⟩ ∧
      rank tied 2 ⟨3, "b", pad⟩ = 3 ∧
      (compact tied)[3]? = some ⟨3, "b", pad⟩ ∧
      (rank tied 0 ⟨3, "c", pad⟩ < rank tied 2 ⟨3, "b", pad⟩ ↔ 3 < 3 ∨ 3 = 3 ∧ 0 < 2) ∧
      compact (compact tied) = compact tied) ∧
    (indices apart).Nodup ∧ apart[0]? = some ⟨5, "b", pad⟩ ∧
      rank apart 0 ⟨5, "b", pad⟩ = (indices apart).countP (· < 5) ∧
      rank apart 0 ⟨5, "b", pad⟩ ≤ 5 := by
  intro pad single tied apart
  obtain ⟨hpairs, -, hplaces, horder, honce, -⟩ := compact_renumbers_in_order tied
  obtain ⟨-, -, -, -, -, hunshared⟩ := compact_renumbers_in_order apart
  have hnodup : (indices apart).Nodup := by decide
  refine ⟨⟨by cbv, hpairs, rfl, by decide, hplaces 2 _ rfl, horder 0 _ 2 _ rfl rfl, honce⟩,
    hnodup, rfl, hunshared hnodup 0 _ rfl⟩

end PlayerSlots.Slot
