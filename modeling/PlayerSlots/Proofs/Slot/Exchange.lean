import Mathlib
import PlayerSlots.Proofs.Slot.Pass

/-! # Exchanges over a saved table

Each fresh entry makes two slots of the saved table exchange their positions, so a later exchange
can move whoever an earlier one has moved. Where no position is shared, an exchange is a permutation
of the positions. From this follow who ends where, and that the order of the entries does not matter.

* `Unshared`: no device has two slots, and no position has two.
* `Applies`: a table has the device and the position of an entry. Only such entries count.
* `moveTo_eq_permuted`: an exchange as a transposition of positions.
* `realign_conserves_and_honours`: what exchanges keep, and where the devices end.
* `moveTo_comm`, `realign_ignores_order`: exchanges for different devices and positions commute.
-/

namespace PlayerSlots.Slot
set_option autoImplicit false

variable {table saved fresh fresh' : List Slot} {e f s t x : Slot}

/-- No device has two slots, and no position has two. -/
structure Unshared (table : List Slot) : Prop where
  devices_nodup : (devices table).Nodup
  indices_nodup : (indices table).Nodup

/-! ## What every exchange keeps -/

theorem indices_exchange_perm (table : List Slot) (p q : Nat) :
    (indices (exchange table p q)).Perm (indices table) := by
  unfold exchange
  split
  · rename_i s t hs ht
    obtain ⟨hp, rfl⟩ := List.getElem?_eq_some_iff.1 hs
    obtain ⟨hq, rfl⟩ := List.getElem?_eq_some_iff.1 ht
    rw [← List.length_map Slot.index] at hp hq
    have hperm := List.set_set_perm hp hq
    simpa [indices, List.map_set] using hperm
  · exact List.Perm.refl _

theorem indices_moveTo_perm (table : List Slot) (e : Slot) :
    (indices (moveTo table e)).Perm (indices table) := by
  unfold moveTo
  split
  · exact indices_exchange_perm _ _ _
  · exact List.Perm.refl _

theorem indices_foldl_moveTo_perm (fresh table : List Slot) :
    (indices (fresh.foldl moveTo table)).Perm (indices table) := by
  induction fresh generalizing table with
  | nil => exact List.Perm.refl _
  | cons e fresh ih => exact (ih _).trans (indices_moveTo_perm table e)

theorem indices_realign_perm (fresh saved : List Slot) :
    (indices (realign fresh saved)).Perm (indices saved) :=
  ((sort_perm _).map _).trans (indices_foldl_moveTo_perm fresh saved)

/-! ## Which entries count -/

/-- The table has the device and the position of an entry. -/
def Applies (table : List Slot) (e : Slot) : Prop :=
  e.device ∈ devices table ∧ e.index ∈ indices table

theorem applies_moveTo (table : List Slot) (e f : Slot) :
    Applies (moveTo table e) f ↔ Applies table f := by
  rw [Applies, Applies, devices_of_occupants (occupants_moveTo table e),
    (indices_moveTo_perm table e).mem_iff]

theorem applies_foldl_moveTo (fresh table : List Slot) (f : Slot) :
    Applies (fresh.foldl moveTo table) f ↔ Applies table f := by
  rw [Applies, Applies, devices_of_occupants (occupants_foldl_moveTo fresh table),
    (indices_foldl_moveTo_perm fresh table).mem_iff]

theorem moveTo_of_not_applies (h : ¬Applies table e) : moveTo table e = table := by
  unfold moveTo
  split
  · rename_i p q hp hq
    obtain ⟨hp, hdevice, -⟩ := List.findIdx?_eq_some_iff_getElem.1 hp
    obtain ⟨hq, hindex, -⟩ := List.findIdx?_eq_some_iff_getElem.1 hq
    refine absurd ⟨?_, ?_⟩ h
    · exact List.mem_map.2 ⟨_, List.getElem_mem hp, by simpa using hdevice⟩
    · exact List.mem_map.2 ⟨_, List.getElem_mem hq, by simpa using hindex⟩
  · rfl

/-! ## Exchanges as permutations -/

/-- A table with its positions permuted. -/
def permuted (σ : Equiv.Perm Nat) (table : List Slot) : List Slot :=
  table.map fun s => { s with index := σ s.index }

theorem permuted_permuted (σ τ : Equiv.Perm Nat) (table : List Slot) :
    permuted σ (permuted τ table) = permuted (σ * τ) table := by
  rw [permuted, permuted, List.map_map]
  rfl

theorem ofDevice?_permuted (σ : Equiv.Perm Nat) {d : String} (h : ofDevice? table d = some s) :
    ofDevice? (permuted σ table) d = some { s with index := σ s.index } := by
  rw [ofDevice?] at h
  rw [ofDevice?, permuted, List.find?_map]
  exact congrArg (Option.map _) h

/-- Where no position is shared, an exchange swaps two positions and leaves the others alone. -/
theorem exchange_eq_permuted (h : (indices table).Nodup) {p q : Nat} (hp : p < table.length)
    (hq : q < table.length) :
    exchange table p q = permuted (Equiv.swap table[p].index table[q].index) table := by
  have hinj {r r' : Nat} (hr : r < table.length) (hr' : r' < table.length) :
      table[r].index = table[r'].index ↔ r = r' := by
    have hr₁ : r < (indices table).length := by simpa using hr
    have hr₂ : r' < (indices table).length := by simpa using hr'
    have hiff : (indices table)[r] = (indices table)[r'] ↔ r = r' := h.getElem_inj_iff
    simpa using hiff
  rw [exchange, List.getElem?_eq_getElem hp, List.getElem?_eq_getElem hq]
  refine List.ext_getElem (by simp [permuted]) fun r hr _ => ?_
  have hr' : r < table.length := by simpa using hr
  simp only [permuted, List.getElem_map, List.getElem_set]
  by_cases hqr : q = r
  · subst hqr
    rw [if_pos rfl, Equiv.swap_apply_right]
  · rw [if_neg hqr]
    by_cases hpr : p = r
    · subst hpr
      rw [if_pos rfl, Equiv.swap_apply_left]
    · rw [if_neg hpr, Equiv.swap_apply_of_ne_of_ne]
      · exact fun he => hpr ((hinj hr' hp).1 he).symm
      · exact fun he => hqr ((hinj hr' hq).1 he).symm

theorem exists_findIdx?_of_find? {p : Slot → Bool} (h : table.find? p = some s) :
    ∃ r, ∃ hr : r < table.length, table.findIdx? p = some r ∧ table[r] = s := by
  rw [List.find?_eq_bind_findIdx?_getElem?, Option.bind_eq_some_iff] at h
  obtain ⟨r, hfound, hget⟩ := h
  obtain ⟨hr, hget⟩ := List.getElem?_eq_some_iff.1 hget
  exact ⟨r, hr, hfound, hget⟩

/-- The device of an entry goes to the position of the entry, and who was there takes its place. -/
theorem moveTo_eq_permuted (h : (indices table).Nodup) (hs : ofDevice? table e.device = some s)
    (he : e.index ∈ indices table) :
    moveTo table e = permuted (Equiv.swap s.index e.index) table := by
  obtain ⟨t, ht, hindex⟩ := List.mem_map.1 he
  have hat : atIndex? table e.index = some t := (atIndex?_eq_some_iff h).2 ⟨ht, hindex⟩
  obtain ⟨p, hp, hpfound, rfl⟩ := exists_findIdx?_of_find? hs
  obtain ⟨q, hq, hqfound, rfl⟩ := exists_findIdx?_of_find? hat
  rw [moveTo, hpfound, hqfound, ← hindex]
  exact exchange_eq_permuted h hp hq

theorem exists_ofDevice?_of_applies (h : Applies table e) :
    ∃ s, ofDevice? table e.device = some s :=
  Option.isSome_iff_exists.1 ((isSome_ofDevice? table e.device).2 h.1)

/-! ## Who ends where -/

theorem mem_moveTo_of_ofDevice? (h : (indices table).Nodup)
    (hs : ofDevice? table e.device = some s) (he : e.index ∈ indices table) :
    { s with index := e.index } ∈ moveTo table e := by
  rw [moveTo_eq_permuted h hs he]
  refine List.mem_map.2 ⟨s, (mem_of_ofDevice? hs).1, ?_⟩
  rw [Equiv.swap_apply_left]

/-- An exchange leaves everyone alone but the device of the entry and who is at its position. -/
theorem mem_moveTo_of_ne (h : (indices table).Nodup) (hx : x ∈ table)
    (hne : Applies table e → e.device ≠ x.device ∧ e.index ≠ x.index) : x ∈ moveTo table e := by
  by_cases he : Applies table e
  · obtain ⟨s, hs⟩ := exists_ofDevice?_of_applies he
    obtain ⟨hmem, hdevice⟩ := mem_of_ofDevice? hs
    obtain ⟨hother, hindex⟩ := hne he
    have hsx : x.index ≠ s.index := fun heq =>
      hother (by rw [← hdevice, List.inj_on_of_nodup_map h hx hmem heq])
    rw [moveTo_eq_permuted h hs he.2]
    refine List.mem_map.2 ⟨x, hx, ?_⟩
    rw [Equiv.swap_apply_of_ne_of_ne hsx hindex.symm]
  · rwa [moveTo_of_not_applies he]

theorem mem_foldl_moveTo_of_ne (h : (indices table).Nodup) (hx : x ∈ table)
    (hne : ∀ e ∈ fresh, Applies table e → e.device ≠ x.device ∧ e.index ≠ x.index) :
    x ∈ fresh.foldl moveTo table := by
  induction fresh generalizing table with
  | nil => exact hx
  | cons e fresh ih =>
    rw [List.forall_mem_cons] at hne
    refine ih ((indices_moveTo_perm table e).nodup_iff.2 h) (mem_moveTo_of_ne h hx hne.1) ?_
    intro f hf happlies
    exact hne.2 f hf ((applies_moveTo table e f).1 happlies)

theorem map_occupant_ofDevice? (table : List Slot) (d : String) :
    (ofDevice? table d).map occupant = (occupants table).find? (·.1 == d) := by
  rw [ofDevice?, occupants, List.find?_map]
  rfl

/-- Where a device is now, with what was saved for it. -/
theorem exists_ofDevice?_foldl_moveTo (fresh : List Slot) {d : String}
    (h : ofDevice? saved d = some s) :
    ∃ i, ofDevice? (fresh.foldl moveTo saved) d = some { s with index := i } := by
  have hmap := map_occupant_ofDevice? (fresh.foldl moveTo saved) d
  rw [occupants_foldl_moveTo, ← map_occupant_ofDevice?, h] at hmap
  obtain ⟨t, ht, hts⟩ := Option.map_eq_some_iff.1 hmap
  obtain ⟨hdevice, hbinding⟩ := Prod.mk.inj hts
  exact ⟨t.index, by rw [ht, ← hdevice, ← hbinding]⟩

/-- The device of an entry gets to its position, and no later exchange moves it away: later entries
are for other devices and other positions. -/
theorem mem_foldl_moveTo_of_applies (hsaved : Unshared saved) (hfresh : Unshared fresh)
    (he : e ∈ fresh) (happlies : Applies saved e) (hs : s ∈ saved) (hd : s.device = e.device) :
    { s with index := e.index } ∈ fresh.foldl moveTo saved := by
  obtain ⟨before, after, rfl⟩ := List.append_of_mem he
  rw [List.foldl_append, List.foldl_cons]
  have hnodup := (indices_foldl_moveTo_perm before saved).nodup_iff.2 hsaved.indices_nodup
  have hthere := (applies_foldl_moveTo before saved e).2 happlies
  obtain ⟨i, hi⟩ := exists_ofDevice?_foldl_moveTo before
    ((ofDevice?_eq_some_iff hsaved.devices_nodup).2 ⟨hs, hd⟩)
  have hmoved := mem_moveTo_of_ofDevice? hnodup hi hthere.2
  refine mem_foldl_moveTo_of_ne ((indices_moveTo_perm _ e).nodup_iff.2 hnodup) hmoved ?_
  intro f hf _
  have hdevices := hfresh.devices_nodup
  have hindices := hfresh.indices_nodup
  simp only [List.map_append, List.map_cons, List.nodup_append, List.nodup_cons] at hdevices hindices
  refine ⟨fun heq => hdevices.2.1.1 ?_, fun heq => hindices.2.1.1 ?_⟩
  · rw [← hd, ← show f.device = s.device from heq]
    exact List.mem_map_of_mem hf
  · rw [← show f.index = e.index from heq]
    exact List.mem_map_of_mem hf

/-- Whatever is placed afresh and whatever was saved, exchanges only hand the saved positions around
among the saved devices, and the table comes out in order. Where no device and no position occurs
twice, every fresh entry of which the saved table has the device and the position puts the device
there, and a saved slot that no such entry is about stays as it is. -/
theorem realign_conserves_and_honours (fresh saved : List Slot) :
    let table := realign fresh saved
    (indices table).Pairwise (· ≤ ·) ∧
    (indices table).Perm (indices saved) ∧
    (occupants table).Perm (occupants saved) ∧
    (Unshared saved → Unshared fresh →
      (∀ e ∈ fresh, Applies saved e → ∀ s ∈ saved, s.device = e.device →
        { s with index := e.index } ∈ table) ∧
      ∀ s ∈ saved, (∀ e ∈ fresh, Applies saved e → e.device ≠ s.device ∧ e.index ≠ s.index) →
        s ∈ table) := by
  refine ⟨indices_sort_pairwise _, indices_realign_perm fresh saved,
    occupants_realign_perm fresh saved, fun hsaved hfresh => ⟨?_, ?_⟩⟩
  · intro e he happlies s hs hd
    exact mem_sort.2 (mem_foldl_moveTo_of_applies hsaved hfresh he happlies hs hd)
  · intro s hs hne
    exact mem_sort.2 (mem_foldl_moveTo_of_ne hsaved.indices_nodup hs hne)

/-- A device takes the position of another, which has taken a third one's; the third ends where the
first was. One entry is for a device that was not saved, one for a position. -/
theorem realign_conserves_and_honours_chain :
    let pad : Binding := .keyboard ⟨.pro, .empty⟩
    let single : Binding := .keyboard ⟨.handheld, .empty⟩
    let saved : List Slot := [⟨0, "a", pad⟩, ⟨4, "d", pad⟩, ⟨1, "b", single⟩, ⟨2, "c", pad⟩]
    let fresh : List Slot :=
      [⟨1, "a", pad⟩, ⟨4, "new", pad⟩, ⟨7, "d", pad⟩, ⟨2, "b", pad⟩]
    let table : List Slot := [⟨0, "c", pad⟩, ⟨1, "a", pad⟩, ⟨2, "b", single⟩, ⟨4, "d", pad⟩]
    realign fresh saved = table ∧ Unshared saved ∧ Unshared fresh ∧
      Applies saved ⟨2, "b", pad⟩ ∧ ⟨2, "b", single⟩ ∈ table ∧
      (∀ e ∈ fresh, Applies saved e → e.device ≠ "d" ∧ e.index ≠ 4) ∧ ⟨4, "d", pad⟩ ∈ table := by
  intro pad single saved fresh table
  have htable : realign fresh saved = table := by cbv
  have hsaved : Unshared saved := ⟨by decide, by decide⟩
  have hfresh : Unshared fresh := ⟨by decide, by decide⟩
  have happlies : Applies saved ⟨2, "b", pad⟩ := by simp [Applies, saved]
  have hnone : ∀ e ∈ fresh, Applies saved e → e.device ≠ "d" ∧ e.index ≠ 4 := by
    simp [fresh, saved, Applies]
  obtain ⟨-, -, -, hends⟩ := realign_conserves_and_honours fresh saved
  rw [htable] at hends
  obtain ⟨hhonoured, hkept⟩ := hends hsaved hfresh
  exact ⟨htable, hsaved, hfresh, happlies,
    hhonoured _ (by simp [fresh]) happlies ⟨1, "b", single⟩ (by simp [saved]) rfl, hnone,
    hkept _ (by simp [saved]) hnone⟩

/-! ## The order of the entries -/

/-- Two transpositions that move different things to different positions can be made in either
order, if each is made from where the thing is by then. -/
theorem swap_mul_swap_comm {a b i j : Nat} (hab : a ≠ b) (hij : i ≠ j) :
    Equiv.swap (Equiv.swap a i b) j * Equiv.swap a i
      = Equiv.swap (Equiv.swap b j a) i * Equiv.swap b j := by
  ext x
  simp only [Equiv.Perm.mul_apply, Equiv.swap_apply_def]
  grind

theorem moveTo_moveTo (h : (indices table).Nodup) (hs : ofDevice? table e.device = some s)
    (ht : ofDevice? table f.device = some t) (he : e.index ∈ indices table)
    (hf : f.index ∈ indices table) :
    moveTo (moveTo table e) f = permuted (Equiv.swap (Equiv.swap s.index e.index t.index) f.index
      * Equiv.swap s.index e.index) table := by
  have hnodup := (indices_moveTo_perm table e).nodup_iff.2 h
  have hthere := (indices_moveTo_perm table e).mem_iff.2 hf
  rw [moveTo_eq_permuted h hs he] at hnodup hthere ⊢
  rw [moveTo_eq_permuted hnodup (ofDevice?_permuted _ ht) hthere, permuted_permuted]

/-- Exchanges for different devices and different positions can be made in either order. -/
theorem moveTo_comm (h : (indices table).Nodup) (hdevice : e.device ≠ f.device)
    (hindex : e.index ≠ f.index) :
    moveTo (moveTo table e) f = moveTo (moveTo table f) e := by
  by_cases he : Applies table e
  · by_cases hf : Applies table f
    · obtain ⟨s, hs⟩ := exists_ofDevice?_of_applies he
      obtain ⟨t, ht⟩ := exists_ofDevice?_of_applies hf
      obtain ⟨hsmem, hsd⟩ := mem_of_ofDevice? hs
      obtain ⟨htmem, htd⟩ := mem_of_ofDevice? ht
      have hst : s.index ≠ t.index := fun heq =>
        hdevice (by rw [← hsd, ← htd, List.inj_on_of_nodup_map h hsmem htmem heq])
      rw [moveTo_moveTo h hs ht he.2 hf.2, moveTo_moveTo h ht hs hf.2 he.2,
        swap_mul_swap_comm hst hindex]
    · rw [moveTo_of_not_applies hf, moveTo_of_not_applies (mt (applies_moveTo table e f).1 hf)]
  · rw [moveTo_of_not_applies he, moveTo_of_not_applies (mt (applies_moveTo table f e).1 he)]

/-- The induction is over the permutation. Every exchange keeps the positions distinct, so that the
next two can change places. -/
theorem foldl_moveTo_eq_of_perm (hperm : fresh.Perm fresh') (hfresh : Unshared fresh)
    (h : (indices table).Nodup) : fresh.foldl moveTo table = fresh'.foldl moveTo table := by
  induction hperm generalizing table with
  | nil => rfl
  | cons e _ ih =>
    exact ih ⟨(List.nodup_cons.1 hfresh.devices_nodup).2, (List.nodup_cons.1 hfresh.indices_nodup).2⟩
      ((indices_moveTo_perm table e).nodup_iff.2 h)
  | swap e f l =>
    have hdevices := (List.nodup_cons.1 hfresh.devices_nodup).1
    have hindices := (List.nodup_cons.1 hfresh.indices_nodup).1
    rw [List.foldl_cons, List.foldl_cons, List.foldl_cons, List.foldl_cons, moveTo_comm h]
    · exact fun heq => hdevices (by simp [heq])
    · exact fun heq => hindices (by simp [heq])
  | trans hfirst _ ih ih' =>
    have hmiddle : Unshared _ := ⟨(hfirst.map _).nodup_iff.1 hfresh.devices_nodup,
      (hfirst.map _).nodup_iff.1 hfresh.indices_nodup⟩
    rw [ih hfresh h, ih' hmiddle h]

/-- Where no position of the saved table is shared and no device and no position occurs twice among
the fresh entries, their order makes no difference, not even for who is displaced by them. -/
theorem realign_ignores_order (hperm : fresh.Perm fresh') (hfresh : Unshared fresh)
    (hsaved : (indices saved).Nodup) : realign fresh saved = realign fresh' saved := by
  rw [realign, realign, foldl_moveTo_eq_of_perm hperm hfresh hsaved]

/-- A chain and a cycle. The only entry for the device that the chain displaces is for a position that
was not saved. -/
theorem realign_ignores_order_reversed :
    let pad : Binding := .keyboard ⟨.pro, .empty⟩
    let saved : List Slot := [⟨0, "a", pad⟩, ⟨1, "b", pad⟩, ⟨2, "c", pad⟩, ⟨3, "x", pad⟩,
      ⟨4, "y", pad⟩, ⟨5, "z", pad⟩]
    let fresh : List Slot := [⟨1, "a", pad⟩, ⟨2, "b", pad⟩, ⟨4, "x", pad⟩, ⟨9, "c", pad⟩,
      ⟨5, "y", pad⟩, ⟨3, "z", pad⟩]
    fresh.Perm fresh.reverse ∧ Unshared fresh ∧ (indices saved).Nodup ∧
      realign fresh saved = [⟨0, "c", pad⟩, ⟨1, "a", pad⟩, ⟨2, "b", pad⟩, ⟨3, "z", pad⟩,
        ⟨4, "x", pad⟩, ⟨5, "y", pad⟩] ∧
      realign fresh saved = realign fresh.reverse saved := by
  intro pad saved fresh
  have hperm : fresh.Perm fresh.reverse := (List.reverse_perm fresh).symm
  have hfresh : Unshared fresh := ⟨by decide, by decide⟩
  have hsaved : (indices saved).Nodup := by decide
  exact ⟨hperm, hfresh, hsaved, by cbv, realign_ignores_order hperm hfresh hsaved⟩

end PlayerSlots.Slot
