import Mathlib
import PlayerSlots.Proofs.Session.PlayerOrder
import PlayerSlots.Proofs.Slot.Arrival

/-! # Numbers without holes

Once the players are numbered from the first position on without a hole, they stay so, whatever
happens: devices that go keep their entries, new ones make a pass renumber, and a repair for fewer
positions keeps the first slots.

* `Slot.Gapless`; `Slot.gapless_runPass`, `Slot.gapless_repair`: the two things that change a table.
* `Session.gapless_step`: one command.
* `numbering_stays_gapless`: every run.
-/

namespace PlayerSlots
set_option autoImplicit false

variable {provider : Provider}

namespace Slot

variable {limit : Nat} {table saved : List Slot}

/-- The positions are exactly the first ones, as many as there are slots. -/
def Gapless (table : List Slot) : Prop := indices table = List.range table.length

theorem gapless_of_full (h : WellFormed limit table) (hfull : table.length = limit) :
    Gapless table := by
  rw [Gapless, hfull]
  exact h.indices_eq_range hfull

theorem gapless_colorAll (h : Gapless table) (overflow : Overflow) :
    Gapless (colorAll overflow table) := by
  rw [Gapless, indices_colorAll, colorAll, List.length_map]
  exact h

theorem gapless_runPass (options : PassOptions) (h : WellFormed options.maxSlots saved)
    (hsaved : Gapless saved) (connected : List Device) (provider : Provider) :
    Gapless (runPass connected saved provider options).slots := by
  by_cases hnew : (place connected saved options.maxSlots provider).newcomers = []
  · rw [runPass_of_newcomers_nil options h hnew]
    exact gapless_colorAll hsaved _
  · exact indices_runPass_of_newcomers_ne_nil options hnew

theorem gapless_repair (h : WellFormed limit table) (hgapless : Gapless table)
    (hnormal : ∀ d ∈ devices table, normalizeId d = d) (limit' : Nat) :
    Gapless (repair limit' table) := by
  by_cases hfit : table.length ≤ limit'
  · -- there is a position for every slot, so nothing moves
    have hbelow : ∀ i ∈ indices table, i < limit' := by
      intro i hi
      rw [hgapless, List.mem_range] at hi
      omega
    have hrange : WellFormed limit' table := { h with below := hbelow }
    rw [repair_eq_self hrange hnormal]
    exact hgapless
  · -- as many slots as there are positions are left
    have hlen := (occupants_repair_perm_take h hnormal limit').length_eq
    rw [List.length_map, List.length_map, List.length_take] at hlen
    exact gapless_of_full (wellFormed_repair limit' table) (by omega)

end Slot

namespace Session

open Slot (Gapless)

theorem gapless_prepares {s s₁ : Session} (h : s.Sound) (hn : s.Normal) (hs : Gapless s.table)
    {c : Command} (hc : s.Prepares c s₁) : Gapless s₁.table := by
  rw [hc.table_eq]
  split
  · exact hs
  · exact Slot.gapless_repair h.table hs hn.table _

theorem gapless_pass {s : Session} (h : s.Sound) (hs : Gapless s.table) (provider : Provider) :
    Gapless (s.pass provider).1.table := by
  cases he : s.settings.enabled with
  | false =>
    rw [pass_of_disabled he]
    exact hs
  | true =>
    rw [h.table_pass he]
    exact Slot.gapless_runPass s.settings.passOptions h.table hs s.connected provider

theorem gapless_step {s : Session} (h : s.Sound) (hn : s.Normal) (hs : Gapless s.table)
    (provider : Provider) (c : Command) : Gapless (s.step provider c).1.table := by
  rcases step_cases provider s c with ⟨s₁, hs₁, hstep⟩ | hquiet
  · rw [hstep]
    exact gapless_pass (h.prepares hs₁) (gapless_prepares h hn hs hs₁) provider
  · rw [hquiet.session]
    exact hs

end Session

/-- Let the repaired list at the start have no gaps, as the empty one, and let commands with ids in
normal form run, whatever settings they ask for. Unless a shutdown has ended the run, the positions
in the table are then the first ones, as many as it has slots. -/
theorem numbering_stays_gapless (provider : Provider) (settings : AutoAssign) (saved : List Slot)
    (hstart : Slot.Gapless (Slot.repair settings.maxSlots saved)) (commands : List Command)
    (hnormal : ∀ c ∈ commands, c.Normal) :
    (.shutdown ∈ commands ∧
      ((Worker.running (.start settings saved)).run provider commands).1 = .stopped) ∨
    ∃ s, ((Worker.running (.start settings saved)).run provider commands).1 = .running s ∧
      Slot.indices s.table = List.range s.table.length := by
  rcases Worker.run_cases provider (.start settings saved) commands with hend | ⟨-, s, hrun⟩
  · exact .inl hend
  · right
    have hall : s.Sound ∧ s.Normal ∧ Slot.Gapless s.table := by
      refine Worker.run_induct (P := fun s => s.Sound ∧ s.Normal ∧ Slot.Gapless s.table) ?_
        ⟨.start settings saved, .start settings saved, hstart⟩ hrun
      rintro s ⟨h, hn, hs⟩ c hc
      exact ⟨h.step c, hn.step h (hnormal c hc), Session.gapless_step h hn hs provider c⟩
    exact ⟨s, hrun, hall.2.2⟩

/-- A list that needs repair at the start, a player who goes while another comes, and fewer positions
and then more of them. -/
theorem numbering_stays_gapless_narrow :
    let saved : List Slot :=
      [⟨1, "b Pad", .keyboard ⟨.pro, .empty⟩⟩, ⟨1, "c", .keyboard ⟨.handheld, .empty⟩⟩]
    let commands : List Command :=
      [.connected "c Pad" "Pad", .connected "a" "Pad", .disconnected "c", .connected "d" "Pad",
        .update { maxSlots := 1 }, .update { maxSlots := 9, overflow := .wrap },
        .resync [⟨"e", "Pad"⟩, ⟨"a", "Pad"⟩]]
    Slot.Gapless (Slot.repair 3 saved) ∧ (∀ c ∈ commands, c.Normal) ∧
    ((.shutdown ∈ commands ∧
      ((Worker.running (.start { maxSlots := 3 } saved)).run .keyless commands).1 = .stopped) ∨
    ∃ s, ((Worker.running (.start { maxSlots := 3 } saved)).run .keyless commands).1 = .running s ∧
      Slot.indices s.table = List.range s.table.length) := by
  intro saved commands
  have hstart : Slot.Gapless (Slot.repair 3 saved) := by
    have hindices : Slot.indices (Slot.repair 3 saved) = [0, 1] := by cbv
    have hlen := congrArg List.length hindices
    rw [List.length_map] at hlen
    rw [Slot.Gapless, hindices, hlen]
    rfl
  have hnormal : ∀ c ∈ commands, c.Normal := by
    intro c hc
    simp only [commands, List.mem_cons, List.not_mem_nil, or_false] at hc
    rcases hc with rfl | rfl | rfl | rfl | rfl | rfl | rfl
    · exact Command.normal_connected _ _
    · exact Command.normal_connected _ _
    · trivial
    · exact Command.normal_connected _ _
    · trivial
    · trivial
    · intro d hd
      rw [List.mem_pair] at hd
      rcases hd with rfl | rfl <;> cbv
  exact ⟨hstart, hnormal,
    numbering_stays_gapless .keyless { maxSlots := 3 } saved hstart commands hnormal⟩

end PlayerSlots
