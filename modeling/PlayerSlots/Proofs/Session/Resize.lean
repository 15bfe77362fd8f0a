import Mathlib
import PlayerSlots.Proofs.Session.KnownHardware
import PlayerSlots.Proofs.Session.PlayerOrder
import PlayerSlots.Proofs.Slot.Newcomers

/-! # Another number of positions

New settings repair the table by its positions alone, before the pass sees who is connected. So a
player can lose its slot to entries of devices that are away, and come back from the pass as new
hardware.

* `Slot.CarriesOver`: devices take their slots and bindings from one table to another; every pass
  does this for the connected ones.
* `Session.KeepsPlayers`: what players expect of new settings.
* `update_keeps_players_iff`: they get it iff the repair does not cut them off.
* `update_evicts_player`: a player who is cut off although there is a position for everyone present.
-/

namespace PlayerSlots
set_option autoImplicit false

open Slot (devices)

theorem Binding.SameUpToColor.hasLight_eq {b c : Binding} (h : b.SameUpToColor c) :
    b.hasLight = c.hasLight := by
  simpa [Binding.withoutColor] using congrArg Binding.hasLight h

/-! ## Carrying over -/

namespace Slot

/-- Those of the devices that have a slot in the first table have one in the second, with the same
binding except for the color. -/
def CarriesOver (ids : List String) (t u : List Slot) : Prop :=
  ∀ x ∈ t, x.device ∈ ids → ∃ y ∈ u, y.device = x.device ∧ y.binding.SameUpToColor x.binding

theorem carriesOver_refl (ids : List String) (t : List Slot) : CarriesOver ids t t :=
  fun x hx _ => ⟨x, hx, rfl, rfl⟩

theorem CarriesOver.trans {ids : List String} {t u v : List Slot} (h : CarriesOver ids t u)
    (h' : CarriesOver ids u v) : CarriesOver ids t v := by
  intro x hx hid
  obtain ⟨y, hy, hdevice, hbinding⟩ := h x hx hid
  obtain ⟨z, hz, hdevice', hbinding'⟩ := h' y hy (hdevice ▸ hid)
  exact ⟨z, hz, hdevice'.trans hdevice, hbinding'.trans hbinding⟩

theorem carriesOver_runPass (options : PassOptions) {saved : List Slot}
    (h : WellFormed options.maxSlots saved) (connected : List Device) (provider : Provider) :
    CarriesOver (connected.map (·.id)) saved (runPass connected saved provider options).slots := by
  intro x hx hid
  have hin : x.device ∈ devices saved := List.mem_map_of_mem hx
  obtain ⟨y, hy, hdevice⟩ :=
    List.mem_map.1 (mem_runPass_of_known options h provider hid (h.present _ hin) hin)
  refine ⟨y, hy, hdevice, ?_⟩
  rcases origin_of_mem_runPass options h hy with ⟨z, hz, hzy, hbinding⟩ | ⟨d, hd, hdy, -⟩
  · rw [hbinding, h.eq_of_device_eq hz hx (hzy.trans hdevice)]
    exact Binding.sameUpToColor_setColor _ _
  · -- a newcomer has no saved entry
    have hout := (mem_ids_newcomers (List.mem_map_of_mem hd)).2.2
    exact absurd hin (hdy.trans hdevice ▸ hout)

/-- A repair carries over exactly the devices among the first slots, as many as there are positions
now. -/
theorem carriesOver_repair_iff {limit : Nat} {table : List Slot} (h : WellFormed limit table)
    (hnormal : ∀ d ∈ devices table, normalizeId d = d) (ids : List String) (limit' : Nat) :
    CarriesOver ids table (repair limit' table) ↔
      ∀ p x, table[p]? = some x → x.device ∈ ids → p < limit' := by
  have hperm := occupants_repair_perm_take h hnormal limit'
  constructor
  · intro hkeep p x hp hid
    obtain ⟨y, hy, hdevice, -⟩ := hkeep x (List.mem_of_getElem? hp) hid
    have hin := (devices_perm_of_occupants hperm).mem_iff.1 (List.mem_map_of_mem hy)
    obtain ⟨z, hz, hzy⟩ := List.mem_map.1 hin
    have hzx : z = x := h.eq_of_device_eq (List.mem_of_mem_take hz) (List.mem_of_getElem? hp)
      (hzy.trans hdevice)
    exact (h.mem_take_iff hp limit').1 (hzx ▸ hz)
  · intro hfirst x hx hid
    obtain ⟨p, hp⟩ := List.getElem?_of_mem hx
    have htake : x ∈ table.take limit' := (h.mem_take_iff hp limit').2 (hfirst p x hp hid)
    have hin := hperm.mem_iff.2 (List.mem_map_of_mem (f := occupant) htake)
    obtain ⟨y, hy, heq⟩ := List.mem_map.1 hin
    obtain ⟨hdevice, hbinding⟩ := Prod.mk.inj heq
    exact ⟨y, hy, hdevice, by rw [hbinding]; rfl⟩

end Slot

/-! ## New settings -/

namespace Session

/-- What players expect of new settings: everyone who is connected and has a slot still has one, with
its own binding, and a save means that someone who is connected has got a first slot. -/
structure KeepsPlayers (provider : Provider) (s : Session) (settings : AutoAssign) : Prop where
  seated : Slot.CarriesOver (s.connected.map (·.id)) s.table
    (s.step provider (.update settings)).1.table
  saves : Effect.savedLists (s.step provider (.update settings)).2 ≠ [] →
    ∃ d ∈ s.connected, d.id ∉ devices s.table ∧
      d.id ∈ devices (s.step provider (.update settings)).1.table

theorem step_update_of_ne (provider : Provider) {s : Session} {settings : AutoAssign}
    (hne : settings ≠ s.settings) :
    s.step provider (.update settings) = (s.update settings).pass provider :=
  (Prepares.update settings hne).step_eq provider

/-- Players keep what the repair leaves them, and then only new hardware makes a pass save. -/
theorem Sound.keepsPlayers {s : Session} (h : s.Sound) (provider : Provider)
    {settings : AutoAssign}
    (hkeep : Slot.CarriesOver (s.connected.map (·.id)) s.table (s.update settings).table) :
    s.KeepsPlayers provider settings := by
  by_cases heq : settings = s.settings
  · subst heq
    refine { seated := ?_, saves := ?_ } <;> rw [step_update_self]
    · exact Slot.carriesOver_refl _ _
    · exact fun hne => absurd rfl hne
  · have hsound := h.update settings
    cases he : (s.update settings).settings.enabled with
    | false =>
      refine { seated := ?_, saves := ?_ } <;> rw [step_update_of_ne provider heq,
        pass_of_disabled he]
      · exact hkeep
      · exact fun hne => absurd rfl hne
    | true =>
      have hpass := Slot.carriesOver_runPass (s.update settings).settings.passOptions hsound.table
        s.connected provider
      refine { seated := ?_, saves := ?_ } <;> rw [step_update_of_ne provider heq,
        hsound.table_pass he]
      · exact hkeep.trans hpass
      · intro hsaved
        rw [savedLists_pass he, Slot.persist_runPass] at hsaved
        have hnew := (ite_ne_right_iff.1 hsaved).1
        obtain ⟨i, hi, hout⟩ := (Slot.newDevice_iff_exists_unsaved _ hsound.table).1 hnew
        have hid := (Slot.mem_devices_runPass _ hsound.table hi).resolve_left hout
        obtain ⟨d, hd, rfl⟩ := List.mem_map.1 hid
        refine ⟨d, hd, ?_, hi⟩
        -- a device that had a slot would have kept it in the repair
        intro hin
        obtain ⟨x, hx, hxd⟩ := List.mem_map.1 hin
        obtain ⟨y, hy, hyx, -⟩ := hkeep x hx (hxd ▸ hid)
        exact hout (List.mem_map.2 ⟨y, hy, hyx.trans hxd⟩)

end Session

/-- Gives every device a binding of the other kind than a given one. -/
def Provider.unlike (b : Binding) : Provider := fun _ =>
  .ok (if b.hasLight then .keyboard ⟨.pro, .empty⟩ else .generic)

theorem Provider.hasLight_unlike (b : Binding) (name : String) :
    ((Provider.unlike b).binding name).hasLight = !b.hasLight := by
  show (if b.hasLight then Binding.keyboard ⟨.pro, .empty⟩ else Binding.generic).hasLight = _
  cases b.hasLight <;> rfl

namespace Session

/-- Who is cut off in the repair gets a binding from the provider, if a slot at all; so with some
provider the own binding is lost. -/
theorem Sound.carriesOver_update {s : Session} (h : s.Sound) {settings : AutoAssign}
    (hall : ∀ provider, s.KeepsPlayers provider settings) :
    Slot.CarriesOver (s.connected.map (·.id)) s.table (s.update settings).table := by
  intro x hx hid
  obtain ⟨y, hy, hdevice, hbinding⟩ := (hall (.unlike x.binding)).seated x hx hid
  by_cases heq : settings = s.settings
  · subst heq
    rw [Session.update, if_pos rfl]
    exact ⟨x, hx, rfl, rfl⟩
  · rw [step_update_of_ne _ heq] at hy
    have hsound := h.update settings
    cases he : (s.update settings).settings.enabled with
    | false =>
      rw [pass_of_disabled he] at hy
      exact ⟨y, hy, hdevice, hbinding⟩
    | true =>
      rw [hsound.table_pass he] at hy
      rcases Slot.origin_of_mem_runPass _ hsound.table hy with ⟨z, hz, hzy, hb⟩ | ⟨d, -, -, hb⟩
      · rw [hb] at hbinding
        exact ⟨z, hz, hzy.trans hdevice, (Binding.sameUpToColor_setColor _ _).symm.trans hbinding⟩
      · exfalso
        have hlight := hbinding.hasLight_eq
        rw [hb, Binding.hasLight_setColor, Provider.hasLight_unlike] at hlight
        cases hx' : x.binding.hasLight <;> rw [hx'] at hlight <;> cases hlight

/-- Where the number of positions stays, repair would change nothing either. -/
theorem Sound.table_update {s : Session} (h : s.Sound) (hn : s.Normal) (settings : AutoAssign) :
    (s.update settings).table = Slot.repair settings.maxSlots s.table := by
  by_cases heq : settings.maxSlots = s.settings.maxSlots
  · rw [Session.update, if_pos heq, heq]
    exact (Slot.repair_eq_self h.table hn.table).symm
  · rw [Session.update, if_neg heq]

end Session

/-- In a reachable session new settings leave all players what they have, whatever the provider, iff
the repair for the new number of positions does. Where all ids are in normal form, that means that
everyone who is connected and has a slot is among the first ones in the table, as many as there are
positions now, those of devices that are away included in the count. -/
theorem update_keeps_players_iff (provider : Provider) (s : Session) (hs : s.Reachable provider)
    (settings : AutoAssign) :
    ((∀ provider', s.KeepsPlayers provider' settings) ↔
      Slot.CarriesOver (s.connected.map (·.id)) s.table (s.update settings).table) ∧
    (s.Normal →
      ((∀ provider', s.KeepsPlayers provider' settings) ↔
        ∀ p x, s.table[p]? = some x → x.device ∈ s.connected.map (·.id) → p < settings.maxSlots)) := by
  have h := hs.sound
  have hiff : (∀ provider', s.KeepsPlayers provider' settings) ↔
      Slot.CarriesOver (s.connected.map (·.id)) s.table (s.update settings).table :=
    ⟨h.carriesOver_update, fun hkeep provider' => h.keepsPlayers provider' hkeep⟩
  refine ⟨hiff, ?_⟩
  intro hn
  rw [hiff, h.table_update hn]
  exact Slot.carriesOver_repair_iff h.table hn.table _ _

/-- The second of two entries is its device's, and it stays when two positions are left. -/
theorem update_keeps_players_iff_second :
    let s : Session :=
      { settings := { maxSlots := 3 }
        connected := [⟨"c", "Pad"⟩]
        table := [⟨0, "a", .keyboard ⟨.pro, .empty⟩⟩, ⟨2, "c", .keyboard ⟨.handheld, .empty⟩⟩] }
    s.Reachable .byName ∧ s.Normal ∧
      ((∀ provider', s.KeepsPlayers provider' { maxSlots := 2 }) ↔
        Slot.CarriesOver (s.connected.map (·.id)) s.table (s.update { maxSlots := 2 }).table) ∧
      ((∀ provider', s.KeepsPlayers provider' { maxSlots := 2 }) ↔
        ∀ p x, s.table[p]? = some x → x.device ∈ s.connected.map (·.id) → p < 2) := by
  intro s
  have hs : s.Reachable .byName := ⟨{ maxSlots := 3 }, s.table, [.connected "c" "Pad"], by cbv⟩
  have hn : s.Normal :=
    { connected := by simp only [s, List.map_cons, List.map_nil, List.forall_mem_singleton]; cbv
      table := by
        intro i hi
        simp only [s, devices, List.map_cons, List.map_nil, List.mem_cons, List.not_mem_nil,
          or_false] at hi
        rcases hi with rfl | rfl <;> cbv }
  exact ⟨hs, hn, (update_keeps_players_iff .byName s hs { maxSlots := 2 }).1,
    (update_keeps_players_iff .byName s hs { maxSlots := 2 }).2 hn⟩

/-- A player on the second position is the only one present when one position is left. It loses its
binding for the sake of a device that is away, and the loss is saved. -/
theorem update_evicts_player :
    let s : Session :=
      { settings := { maxSlots := 2 }
        connected := [⟨"c", "Pad"⟩]
        table := [⟨0, "a", .keyboard ⟨.pro, .empty⟩⟩, ⟨1, "c", .keyboard ⟨.handheld, .empty⟩⟩] }
    let settings : AutoAssign := { maxSlots := 1 }
    s.Reachable .byName ∧ s.settings.enabled = true ∧
      (s.table.filter (·.device ∈ s.connected.map (·.id))).length ≤ settings.maxSlots ∧
      ¬ s.KeepsPlayers .byName settings ∧
      ¬ Slot.CarriesOver (s.connected.map (·.id)) s.table
        (s.step .byName (.update settings)).1.table ∧
      (∀ d ∈ s.connected, d.id ∈ devices s.table) ∧
      Effect.savedLists (s.step .byName (.update settings)).2 ≠ [] := by
  intro s settings
  have hs : s.Reachable .byName := ⟨{ maxSlots := 2 }, s.table, [.connected "c" "Pad"], by cbv⟩
  have hcount : (s.table.filter (·.device ∈ s.connected.map (·.id))).length = 1 := by cbv
  -- whatever the provider supplies, the player's own binding is gone, and that is saved
  have hstep : ∀ provider : Provider, s.step provider (.update settings) =
      let table : List Slot := [⟨0, "c", (provider.binding "Pad").setColor (some 0xFFFF0000)⟩]
      ({ s with settings, table }, [.asked "Pad", .applied table, .saved table]) := by
    intro provider
    cbv
  have hlost : ¬ Slot.CarriesOver (s.connected.map (·.id)) s.table
      (s.step .byName (.update settings)).1.table := by
    intro hkeep
    obtain ⟨y, hy, -, hbinding⟩ :=
      hkeep ⟨1, "c", .keyboard ⟨.handheld, .empty⟩⟩ (by simp [s]) (by simp [s])
    rw [hstep] at hy
    rw [List.mem_singleton.1 hy] at hbinding
    have hlight := hbinding.hasLight_eq
    rw [Binding.hasLight_setColor] at hlight
    cases hlight
  refine ⟨hs, rfl, by rw [hcount], fun hkeep => hlost hkeep.seated, hlost, by simp [s], ?_⟩
  rw [hstep]
  exact List.cons_ne_nil _ _

end PlayerSlots
