/-! # Key maps

`KeyMap` assigns key names to button names. Its entries stand in ascending order of the button
names, so two key maps with the same assignments are equal.
-/

namespace PlayerSlots
set_option autoImplicit false

/-- Assignments of a key to each of some buttons, in ascending order of the buttons. -/
@[ext] structure KeyMap where
  entries : List (String × String)
  ascending : entries.Pairwise (fun p q => p.1 < q.1)
deriving DecidableEq, Repr

namespace KeyMap

def empty : KeyMap := ⟨[], List.Pairwise.nil⟩

instance : Inhabited KeyMap := ⟨empty⟩

/-- Puts an assignment in its place among others, instead of one for the same button. -/
def insertEntry (button key : String) : List (String × String) → List (String × String)
  | [] => [(button, key)]
  | (b, k) :: rest =>
    if button < b then (button, key) :: (b, k) :: rest
    else if b < button then (b, k) :: insertEntry button key rest
    else (button, key) :: rest

theorem mem_insertEntry {button key : String} {l : List (String × String)} {p : String × String}
    (h : p ∈ insertEntry button key l) : p = (button, key) ∨ p ∈ l := by
  induction l with
  | nil => simpa [insertEntry] using h
  | cons q rest ih =>
    obtain ⟨b, k⟩ := q
    simp only [insertEntry] at h
    split at h
    · simpa using h
    · split at h
      · rcases List.mem_cons.1 h with h | h
        · exact .inr (by simp [h])
        · rcases ih h with h | h
          · exact .inl h
          · exact .inr (List.mem_cons_of_mem _ h)
      · rcases List.mem_cons.1 h with h | h
        · exact .inl h
        · exact .inr (List.mem_cons_of_mem _ h)

theorem ascending_insertEntry (button key : String) {l : List (String × String)}
    (h : l.Pairwise (fun p q => p.1 < q.1)) :
    (insertEntry button key l).Pairwise (fun p q => p.1 < q.1) := by
  induction l with
  | nil => simp [insertEntry]
  | cons q rest ih =>
    obtain ⟨b, k⟩ := q
    obtain ⟨hb, hr⟩ := List.pairwise_cons.1 h
    simp only [insertEntry]
    split
    · next hlt =>
      refine List.pairwise_cons.2 ⟨fun p hp => ?_, h⟩
      rcases List.mem_cons.1 hp with rfl | hp
      · exact hlt
      · exact String.lt_trans hlt (hb p hp)
    · next hge =>
      split
      · next hlt =>
        refine List.pairwise_cons.2 ⟨fun p hp => ?_, ih hr⟩
        rcases mem_insertEntry hp with rfl | hp
        · exact hlt
        · exact hb p hp
      · next hle =>
        have he : button = b :=
          String.le_antisymm (String.not_lt.1 hle) (String.not_lt.1 hge)
        exact List.pairwise_cons.2 ⟨fun p hp => he ▸ hb p hp, hr⟩

def insert (m : KeyMap) (button key : String) : KeyMap :=
  ⟨insertEntry button key m.entries, ascending_insertEntry button key m.ascending⟩

/-- The assignments of a list, made one after another. -/
def ofList (l : List (String × String)) : KeyMap :=
  l.foldl (fun m p => m.insert p.1 p.2) empty

/-- An entry above all others goes to the end. -/
theorem insertEntry_of_forall_lt {button key : String} {l : List (String × String)}
    (h : ∀ p ∈ l, p.1 < button) : insertEntry button key l = l ++ [(button, key)] := by
  induction l with
  | nil => rfl
  | cons q rest ih =>
    have hq := h q (List.mem_cons_self ..)
    have hr := ih (fun p hp => h p (List.mem_cons_of_mem _ hp))
    simp [insertEntry, String.lt_asymm hq, hq, hr]

theorem entries_foldl_insert (l : List (String × String)) (m : KeyMap)
    (h : (m.entries ++ l).Pairwise (fun p q => p.1 < q.1)) :
    (l.foldl (fun m p => m.insert p.1 p.2) m).entries = m.entries ++ l := by
  induction l generalizing m with
  | nil => simp
  | cons p rest ih =>
    have hp : ∀ q ∈ m.entries, q.1 < p.1 := fun q hq =>
      (List.pairwise_append.1 h).2.2 q hq p (List.mem_cons_self ..)
    have he : (m.insert p.1 p.2).entries = m.entries ++ [p] := insertEntry_of_forall_lt hp
    rw [List.foldl_cons, ih _ (by rw [he]; simpa using h), he]
    simp

/-- The entries of a key map, assigned one after another, give the key map back. -/
@[simp] theorem ofList_entries (m : KeyMap) : ofList m.entries = m := by
  have h := entries_foldl_insert m.entries empty m.ascending
  exact KeyMap.ext h

end KeyMap

end PlayerSlots
