import Mathlib
import PlayerSlots.Proofs.Session.Soundness
import PlayerSlots.Proofs.Slot.FreePositions

/-! # The order of the registry

In what order a registry lists its devices does not matter once the table is sound. Known devices
never meet on a position, and unknown ones are sorted by their ids before they get any.

* `Slot.present_perm`, `Slot.known_perm`, `Slot.unknown_eq_of_perm`: what becomes of another order.
* `Slot.place_eq_of_perm`, `Slot.runPass_eq_of_perm`: the placement and the pass are the same.
* `registry_order_irrelevant`: so is what a session does with the list.
-/

namespace PlayerSlots
set_option autoImplicit false

variable {provider : Provider}

namespace Slot

variable {limit : Nat} {saved : List Slot} {connected connected' : List Device}

/-! ## The devices in another order -/

theorem present_eq_filter (hids : (connected.map (·.id)).Nodup) :
    present connected = connected.filter (·.id ≠ "") :=
  firstPer_eq_self _ ((List.filter_sublist.map _).nodup hids)

theorem present_perm (hperm : connected.Perm connected') (hids : (connected.map (·.id)).Nodup) :
    (present connected).Perm (present connected') := by
  have hids' : (connected'.map (·.id)).Nodup := (hperm.map _).nodup_iff.1 hids
  rw [present_eq_filter hids, present_eq_filter hids']
  exact hperm.filter _

theorem known_perm (hpresent : (present connected).Perm (present connected')) (saved : List Slot) :
    (known connected saved).Perm (known connected' saved) :=
  hpresent.filterMap _

theorem byId_eq_of_perm {ds es : List Device} (hperm : ds.Perm es) (hids : (ds.map (·.id)).Nodup) :
    byId ds = byId es := by
  have hsort : (byId ds).Perm (byId es) :=
    ((List.mergeSort_perm _ _).trans hperm).trans (List.mergeSort_perm _ _).symm
  have hds := List.pairwise_map.1 (ids_byId_pairwise ds)
  have hes := List.pairwise_map.1 (ids_byId_pairwise es)
  refine hsort.eq_of_pairwise ?_ hds hes
  intro a b ha hb hab hba
  have hain : a ∈ ds := (List.mergeSort_perm _ _).mem_iff.1 ha
  have hbin : b ∈ ds := hperm.mem_iff.2 ((List.mergeSort_perm _ _).mem_iff.1 hb)
  exact List.inj_on_of_nodup_map hids hain hbin (String.le_antisymm hab hba)

theorem unknown_eq_of_perm (hpresent : (present connected).Perm (present connected'))
    (saved : List Slot) : unknown connected saved = unknown connected' saved :=
  byId_eq_of_perm (hpresent.filter _) ((List.filter_sublist.map _).nodup (ids_present_nodup _))

/-! ## The pass -/

theorem newcomers_eq_of_perm (h : WellFormed limit saved)
    (hpresent : (present connected).Perm (present connected')) (provider : Provider) :
    (place connected saved limit provider).newcomers
      = (place connected' saved limit provider).newcomers := by
  rw [newcomers_place_of_wellFormed h, newcomers_place_of_wellFormed h,
    unknown_eq_of_perm hpresent, (known_perm hpresent saved).length_eq]

theorem place_eq_of_perm (h : WellFormed limit saved)
    (hpresent : (present connected).Perm (present connected')) (provider : Provider) :
    place connected saved limit provider = place connected' saved limit provider := by
  have hnew := newcomers_eq_of_perm h hpresent provider
  have hknown := known_perm hpresent saved
  -- known devices leave the same positions free, whatever their order
  have hfree : freeBelow limit (indices (known connected saved))
      = freeBelow limit (indices (known connected' saved)) :=
    freeBelow_congr limit fun i => (hknown.map _).mem_iff
  have hperm : (place connected saved limit provider).slots.Perm
      (place connected' saved limit provider).slots := by
    rw [slots_place_of_wellFormed h, slots_place_of_wellFormed h, ← hnew, arrivals, arrivals, hfree]
    exact ((sort_perm _).trans (hknown.append_right _)).trans (sort_perm _).symm
  have hslots := eq_of_perm_of_ascending hperm (wellFormed_place _ _ _ _).ascending
    (wellFormed_place _ _ _ _).ascending
  calc place connected saved limit provider
      = ⟨(place connected saved limit provider).slots,
          (place connected saved limit provider).newcomers⟩ := rfl
    _ = ⟨(place connected' saved limit provider).slots,
          (place connected' saved limit provider).newcomers⟩ := by rw [hslots, hnew]

theorem runPass_eq_of_perm (options : PassOptions) (h : WellFormed options.maxSlots saved)
    (hpresent : (present connected).Perm (present connected')) (provider : Provider) :
    runPass connected saved provider options = runPass connected' saved provider options := by
  rw [runPass, runPass, place_eq_of_perm h hpresent]

end Slot

/-! ## A session -/

namespace Session

theorem Sound.pass_eq_of_perm {s s' : Session} (h : s.Sound) (hs' : s'.Sound)
    (hsettings : s'.settings = s.settings) (htable : s'.table = s.table)
    (hpresent : (Slot.present s.connected).Perm (Slot.present s'.connected)) :
    (s'.pass provider).1.table = (s.pass provider).1.table ∧
      (s'.pass provider).2 = (s.pass provider).2 := by
  cases he : s.settings.enabled with
  | false =>
    rw [pass_of_disabled he, pass_of_disabled (hsettings ▸ he)]
    exact ⟨htable, rfl⟩
  | true =>
    have hpass := Slot.runPass_eq_of_perm s.settings.passOptions h.table hpresent provider
    rw [h.pass_eq he, hs'.pass_eq (hsettings ▸ he), hsettings, htable, hpass]
    exact ⟨rfl, rfl⟩

end Session

/-- Over a sound table a pass has one outcome, the names that it asks for among it, for all orders of
the connected devices. In a reachable session all orders of the devices that a registry lists lead
to the same table, and the same lists are handed on and saved. -/
theorem registry_order_irrelevant (provider : Provider) :
    (∀ (options : PassOptions) (table : List Slot) (connected connected' : List Device),
      Slot.WellFormed options.maxSlots table → connected.Perm connected' →
      (connected.map (·.id)).Nodup →
      Slot.runPass connected table provider options
        = Slot.runPass connected' table provider options) ∧
    (∀ (s : Session) (ds ds' : List Device), s.Reachable provider → ds.Perm ds' →
      (ds.map (·.id)).Nodup →
      ∃ t t' effects, (Worker.running s).step provider (.resync ds) = (.running t, effects) ∧
        (Worker.running s).step provider (.resync ds') = (.running t', effects) ∧
        t.table = t'.table) := by
  constructor
  · intro options table connected connected' h hperm hids
    exact Slot.runPass_eq_of_perm options h (Slot.present_perm hperm hids) provider
  · intro s ds ds' hs hperm hids
    have h := hs.sound
    have hpresent := Slot.present_perm hperm hids
    -- the session keeps the devices that count, so they are counted once more in the pass
    have hagain : (Slot.present (Slot.present ds)).Perm (Slot.present (Slot.present ds')) :=
      Slot.present_perm hpresent (Slot.ids_present_nodup ds)
    obtain ⟨htable, heffects⟩ :=
      (h.resync ds').pass_eq_of_perm (h.resync ds) rfl rfl hagain.symm
    refine ⟨((s.resync ds).pass provider).1, ((s.resync ds').pass provider).1,
      ((s.resync ds).pass provider).2, rfl, ?_, htable⟩
    rw [heffects]
    rfl

/-- Two known devices and two unknown ones, with a gap before each known one. -/
theorem registry_order_irrelevant_reversed :
    let table : List Slot := [⟨1, "a", .keyboard ⟨.pro, .empty⟩⟩, ⟨4, "c", .keyboard ⟨.pro, .empty⟩⟩]
    let ds : List Device :=
      [⟨"z", "Pad"⟩, ⟨"c", "Pad"⟩, ⟨"x", "Left"⟩, ⟨"a", "Pad"⟩]
    let options : PassOptions := { maxSlots := 5, overflow := .wrap }
    let s := Session.start { maxSlots := 5 } table
    Slot.WellFormed options.maxSlots table ∧ ds.Perm ds.reverse ∧ (ds.map (·.id)).Nodup ∧
    (Slot.runPass ds table .keyless options).asked = ["Left", "Pad"] ∧
    Slot.runPass ds table .keyless options = Slot.runPass ds.reverse table .keyless options ∧
    s.Reachable .keyless ∧
    ∃ t t' effects, (Worker.running s).step .keyless (.resync ds) = (.running t, effects) ∧
      (Worker.running s).step .keyless (.resync ds.reverse) = (.running t', effects) ∧
      t.table = t'.table := by
  intro table ds options s
  have htable : Slot.WellFormed options.maxSlots table :=
    { ascending := by simp [table], below := by simp [table, options],
      present := by simp [table], distinct := by simp [table] }
  have hperm : ds.Perm ds.reverse := (List.reverse_perm ds).symm
  have hids : (ds.map (·.id)).Nodup := by simp [ds]
  have hasked : (Slot.runPass ds table .keyless options).asked = ["Left", "Pad"] := by
    cbv
  have hs : s.Reachable .keyless := ⟨_, _, [], rfl⟩
  exact ⟨htable, hperm, hids, hasked,
    (registry_order_irrelevant .keyless).1 options table ds ds.reverse htable hperm hids, hs,
    (registry_order_irrelevant .keyless).2 s ds ds.reverse hs hperm hids⟩

end PlayerSlots
