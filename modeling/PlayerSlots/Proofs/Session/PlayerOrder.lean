import Mathlib
import PlayerSlots.Proofs.Session.Soundness

/-! # Players are never shuffled

As long as the number of positions does not shrink and ids are in normal form, two devices that stay
in the table keep their order, and their positions never go up.

* `Command.Normal`, `Session.Normal`: ids in normal form, as a handle sends them. A repair for more
  positions then changes nothing.
* `Command.Widen`: commands that never ask for fewer positions.
* `Session.Sound.keepsOrder_step`: one command. `Worker.run_keepsOrder`: a stretch of commands.
* `players_keep_their_order`: any stretch of any run.
-/

namespace PlayerSlots
set_option autoImplicit false

open Slot (devices ofDevice? KeepsOrder)

variable {provider : Provider}

/-! ## Ids in normal form -/

/-- The ids of the devices that a command reports as connected are in normal form. -/
def Command.Normal : Command → Prop
  | .connect d => normalizeId d.id = d.id
  | .resync ds => ∀ d ∈ ds, normalizeId d.id = d.id
  | _ => True

theorem Command.normal_connected (rawId name : String) : (Command.connected rawId name).Normal :=
  normalizeId_normalizeId rawId

namespace Session

/-- All ids are in normal form. -/
structure Normal (s : Session) : Prop where
  connected : ∀ i ∈ s.connected.map (·.id), normalizeId i = i
  table : ∀ i ∈ devices s.table, normalizeId i = i

theorem Normal.start (settings : AutoAssign) (saved : List Slot) :
    Normal (.start settings saved) where
  connected := by simp [Session.start]
  table _ hi := Slot.normalizeId_of_mem_repair hi

theorem mem_ids_connect {s : Session} {d : Device} {i : String}
    (hi : i ∈ (s.connect d).connected.map (·.id)) : i = d.id ∨ i ∈ s.connected.map (·.id) := by
  rw [ids_connect] at hi
  split at hi
  · exact .inr hi
  · rw [List.mem_append, List.mem_singleton] at hi
    exact hi.symm

theorem Normal.prepares {s s₁ : Session} (h : s.Normal) {c : Command} (hn : c.Normal)
    (hc : s.Prepares c s₁) : s₁.Normal := by
  have htable : ∀ i ∈ devices s₁.table, normalizeId i = i := by
    intro i hi
    rw [hc.table_eq] at hi
    split at hi
    · exact h.table i hi
    · exact Slot.normalizeId_of_mem_repair hi
  refine { connected := ?_, table := htable }
  intro i hi
  cases hc with
  | connect d =>
    rcases mem_ids_connect hi with rfl | hi
    · exact hn
    · exact h.connected i hi
  | disconnect id => exact h.connected i ((List.filter_sublist.map _).subset hi)
  | resync ds =>
    obtain ⟨d, hd, rfl⟩ := List.mem_map.1 (Slot.mem_ids_present.1 hi).1
    exact hn d hd
  | update settings _ => exact h.connected i hi
  | refresh => exact h.connected i hi

theorem Normal.pass {s : Session} (h : s.Normal) (hs : s.Sound) : (s.pass provider).1.Normal := by
  cases he : s.settings.enabled with
  | false =>
    rw [pass_of_disabled he]
    exact h
  | true =>
    refine { connected := by rw [connected_pass]; exact h.connected, table := ?_ }
    intro i hi
    rw [hs.table_pass he] at hi
    rcases Slot.mem_devices_runPass s.settings.passOptions hs.table hi with hi | hi
    · exact h.table i hi
    · exact h.connected i hi

theorem Normal.step {s : Session} (h : s.Normal) (hs : s.Sound) {c : Command} (hn : c.Normal) :
    (s.step provider c).1.Normal := by
  rcases step_cases provider s c with ⟨s₁, hs₁, hstep⟩ | hquiet
  · rw [hstep]
    exact (h.prepares hn hs₁).pass (hs.prepares hs₁)
  · rw [hquiet.session]
    exact h

end Session

theorem Worker.normal_run {settings : AutoAssign} {saved : List Slot} {commands : List Command}
    (hnormal : ∀ c ∈ commands, c.Normal) {s : Session}
    (hrun : ((running (.start settings saved)).run provider commands).1 = running s) :
    s.Sound ∧ s.Normal := by
  refine run_induct (P := fun s => s.Sound ∧ s.Normal) ?_
    ⟨.start settings saved, .start settings saved⟩ hrun
  rintro s ⟨hs, hn⟩ c hc
  exact ⟨hs.step c, hn.step hs (hnormal c hc)⟩

/-! ## Commands that never ask for fewer positions -/

/-- From some number of positions on, no command asks for fewer than there were before it. -/
def Command.Widen (limit : Nat) (commands : List Command) : Prop :=
  (limit :: commands.filterMap Command.limit?).Pairwise (· ≤ ·)

theorem Command.Widen.of_cons {limit : Nat} {c : Command} {rest : List Command}
    (h : Command.Widen limit (c :: rest)) :
    limit ≤ c.limit?.getD limit ∧ Command.Widen (c.limit?.getD limit) rest := by
  unfold Command.Widen at h ⊢
  cases hm : c.limit? with
  | none =>
    rw [List.filterMap_cons_none hm] at h
    exact ⟨Nat.le_refl _, h⟩
  | some m =>
    rw [List.filterMap_cons_some hm] at h
    obtain ⟨hle, htail⟩ := List.pairwise_cons.1 h
    exact ⟨hle m (List.mem_cons_self ..), htail⟩

theorem Command.Widen.of_append {limit : Nat} {commands rest : List Command}
    (h : Command.Widen limit (commands ++ rest)) : Command.Widen limit commands :=
  h.sublist (((List.sublist_append_left commands rest).filterMap _).cons_cons limit)

theorem Worker.widen_run {commands rest : List Command} {s t : Session}
    (h : Command.Widen s.settings.maxSlots (commands ++ rest))
    (hrun : ((running s).run provider commands).1 = running t) :
    Command.Widen t.settings.maxSlots rest := by
  induction commands generalizing s with
  | nil =>
    cases hrun
    exact h
  | cons c commands ih =>
    by_cases hc : c = .shutdown
    · simp [run, step, hc] at hrun
    · rw [run_cons_running hc] at hrun
      refine ih ?_ hrun
      rw [Session.maxSlots_step]
      exact h.of_cons.2

/-! ## The order of the players -/

/-- A repair for more positions changes nothing. -/
theorem Session.Sound.table_eq_of_widen {s s₁ : Session} (h : s.Sound) (hn : s.Normal) {c : Command}
    (hc : s.Prepares c s₁) (hwiden : s.settings.maxSlots ≤ s₁.settings.maxSlots) :
    s₁.table = s.table := by
  rw [hc.table_eq]
  split
  · rfl
  · exact Slot.repair_eq_self (h.table.mono hwiden) hn.table

/-- A pass keeps the order. -/
theorem Session.Sound.keepsOrder_step {s : Session} (h : s.Sound) (provider : Provider)
    (hn : s.Normal) {c : Command}
    (hwiden : s.settings.maxSlots ≤ (s.step provider c).1.settings.maxSlots) :
    KeepsOrder s.table (s.step provider c).1.table := by
  rcases step_cases provider s c with ⟨s₁, hs₁, hstep⟩ | hquiet
  · rw [hstep] at hwiden ⊢
    rw [settings_pass] at hwiden
    have htable : s₁.table = s.table := h.table_eq_of_widen hn hs₁ hwiden
    have hsound := h.prepares hs₁
    cases he : s₁.settings.enabled with
    | false =>
      rw [pass_of_disabled he, htable]
      exact Slot.keepsOrder_refl h.table
    | true =>
      rw [hsound.table_pass he, ← htable]
      exact Slot.keepsOrder_runPass s₁.settings.passOptions hsound.table _ _
  · rw [hquiet.session]
    exact Slot.keepsOrder_refl h.table

/-- The induction is over the commands: both devices are in the table after the first one, so that
its order carries over to the rest. -/
theorem Worker.run_keepsOrder {a b : String} {commands : List Command} {s : Session} (h : s.Sound)
    (hn : s.Normal) (hnormal : ∀ c ∈ commands, c.Normal)
    (hwiden : Command.Widen s.settings.maxSlots commands)
    (hstay : ∀ done, done <+: commands →
      a ∈ devices ((running s).run provider done).1.table ∧
        b ∈ devices ((running s).run provider done).1.table)
    {x y : Slot} (hx : x ∈ s.table) (hxa : x.device = a) (hy : y ∈ s.table) (hyb : y.device = b) :
    ∃ t, ((running s).run provider commands).1 = running t ∧
      ∃ x' ∈ t.table, ∃ y' ∈ t.table, x'.device = a ∧ y'.device = b ∧
        x'.index ≤ x.index ∧ y'.index ≤ y.index ∧ (x'.index < y'.index ↔ x.index < y.index) := by
  induction commands generalizing s x y with
  | nil => exact ⟨s, rfl, x, hx, y, hy, hxa, hyb, Nat.le_refl _, Nat.le_refl _, Iff.rfl⟩
  | cons c rest ih =>
    have hfirst := hstay [c] (List.prefix_append [c] rest)
    by_cases hc : c = .shutdown
    · simp [run, step, hc, Worker.table] at hfirst
    · rw [run_cons_running hc] at hfirst
      obtain ⟨x₁, hx₁, hxa₁⟩ := List.mem_map.1 hfirst.1
      obtain ⟨y₁, hy₁, hyb₁⟩ := List.mem_map.1 hfirst.2
      have hgrow := hwiden.of_cons
      rw [← Session.maxSlots_step provider] at hgrow
      have hkeep := h.keepsOrder_step provider hn hgrow.1
      obtain ⟨hxle, hlt⟩ := hkeep x hx x₁ hx₁ (hxa₁.trans hxa.symm)
      obtain ⟨hyle, -⟩ := hkeep y hy y₁ hy₁ (hyb₁.trans hyb.symm)
      obtain ⟨t, ht, x', hx', y', hy', hxa', hyb', hxle', hyle', hlt'⟩ :=
        ih (h.step c) (hn.step h (hnormal c (List.mem_cons_self ..)))
          (fun d hd => hnormal d (List.mem_cons_of_mem c hd)) hgrow.2
          (by
            intro done hdone
            have hboth := hstay (c :: done) (List.cons_prefix_cons.2 ⟨rfl, hdone⟩)
            rwa [run_cons_running hc] at hboth)
          hx₁ hxa₁ hy₁ hyb₁
      rw [run_cons_running hc]
      refine ⟨t, ht, x', hx', y', hy', hxa', hyb', hxle'.trans hxle, hyle'.trans hyle, ?_⟩
      rw [hlt']
      exact hlt y hy y₁ hy₁ (hyb₁.trans hyb.symm)

/-- Let commands that never ask for fewer positions, with ids in normal form, run from any start,
and let two devices be in the table before and after each command of a stretch. Then throughout the
stretch they stand in the same order, and the position of each never goes up. -/
theorem players_keep_their_order (provider : Provider) (settings : AutoAssign) (saved : List Slot)
    (before during : List Command) (hnormal : ∀ c ∈ before ++ during, c.Normal)
    (hwiden : Command.Widen settings.maxSlots (before ++ during)) (a b : String)
    (hstay : ∀ done, done <+: during →
      a ∈ devices (tableAfter provider settings saved (before ++ done)) ∧
        b ∈ devices (tableAfter provider settings saved (before ++ done)))
    (early late : List Command) (hearly : early <+: late) (hlate : late <+: during) :
    ∃ x y x' y',
      ofDevice? (tableAfter provider settings saved (before ++ early)) a = some x ∧
      ofDevice? (tableAfter provider settings saved (before ++ early)) b = some y ∧
      ofDevice? (tableAfter provider settings saved (before ++ late)) a = some x' ∧
      ofDevice? (tableAfter provider settings saved (before ++ late)) b = some y' ∧
      (x'.index < y'.index ↔ x.index < y.index) ∧ x'.index ≤ x.index ∧ y'.index ≤ y.index := by
  obtain ⟨more, rfl⟩ := hearly
  obtain ⟨after, rfl⟩ := hlate
  have hbegin := hstay early ((List.prefix_append early more).trans (List.prefix_append _ after))
  obtain ⟨s, hrun⟩ := exists_running_of_mem_tableAfter hbegin.1
  have hsplit : before ++ (early ++ more ++ after) = before ++ early ++ (more ++ after) := by
    simp only [List.append_assoc]
  rw [hsplit] at hwiden hnormal
  obtain ⟨hs, hn⟩ := Worker.normal_run (fun c hc => hnormal c (List.mem_append_left _ hc)) hrun
  rw [tableAfter_eq hrun] at hbegin ⊢
  obtain ⟨x, hx, hxa⟩ := List.mem_map.1 hbegin.1
  obtain ⟨y, hy, hyb⟩ := List.mem_map.1 hbegin.2
  -- what is left of the stretch runs on from `s`
  have hwidenMore : Command.Widen s.settings.maxSlots more :=
    (Worker.widen_run (s := .start settings saved) hwiden hrun).of_append
  have hstayMore : ∀ done, done <+: more →
      a ∈ devices ((Worker.running s).run provider done).1.table ∧
        b ∈ devices ((Worker.running s).run provider done).1.table := by
    intro done hdone
    rw [← tableAfter_append hrun, List.append_assoc]
    exact hstay (early ++ done)
      (((List.prefix_append_right_inj early).2 hdone).trans (List.prefix_append _ after))
  obtain ⟨t, ht, x', hx', y', hy', hxa', hyb', hxle, hyle, hlt⟩ :=
    Worker.run_keepsOrder hs hn (fun c hc => hnormal c (by simp [hc])) hwidenMore hstayMore
      hx hxa hy hyb
  have ht' : t.Sound := Worker.run_induct (fun s hs c _ => hs.step c) hs ht
  rw [← List.append_assoc, tableAfter_append hrun, ht]
  refine ⟨x, y, x', y', ?_, ?_, ?_, ?_, hlt, hxle, hyle⟩
  · exact (Slot.ofDevice?_eq_some_iff hs.table.distinct).2 ⟨hx, hxa⟩
  · exact (Slot.ofDevice?_eq_some_iff hs.table.distinct).2 ⟨hy, hyb⟩
  · exact (Slot.ofDevice?_eq_some_iff ht'.table.distinct).2 ⟨hx', hxa'⟩
  · exact (Slot.ofDevice?_eq_some_iff ht'.table.distinct).2 ⟨hy', hyb'⟩

/-- A new device fills the first of two gaps: the players behind them move up together. -/
theorem players_keep_their_order_up :
    let before : List Command :=
      [.connected "a" "Pad", .connected "b" "Pad", .connected "c" "Pad", .connected "d" "Pad"]
    let during : List Command :=
      [.disconnected "a", .disconnected "b", .connected "e" "Pad", .update { maxSlots := 9 }]
    (∀ c ∈ before ++ during, c.Normal) ∧ Command.Widen 8 (before ++ during) ∧
      (∀ done, done <+: during →
        "d" ∈ devices (tableAfter .keyless {} [] (before ++ done)) ∧
          "c" ∈ devices (tableAfter .keyless {} [] (before ++ done))) ∧
    ∃ x y x' y',
      ofDevice? (tableAfter .keyless {} [] (before ++ [])) "d" = some x ∧
      ofDevice? (tableAfter .keyless {} [] (before ++ [])) "c" = some y ∧
      ofDevice? (tableAfter .keyless {} [] (before ++ during)) "d" = some x' ∧
      ofDevice? (tableAfter .keyless {} [] (before ++ during)) "c" = some y' ∧
      (x'.index < y'.index ↔ x.index < y.index) ∧ x'.index ≤ x.index ∧ y'.index ≤ y.index := by
  intro before during
  have hall : (during.inits.all fun done =>
      "d" ∈ devices (tableAfter .keyless {} [] (before ++ done)) ∧
        "c" ∈ devices (tableAfter .keyless {} [] (before ++ done))) = true := by cbv
  have hstay : ∀ done, done <+: during →
      "d" ∈ devices (tableAfter .keyless {} [] (before ++ done)) ∧
        "c" ∈ devices (tableAfter .keyless {} [] (before ++ done)) := fun done hdone =>
    of_decide_eq_true (List.all_eq_true.1 hall done ((List.mem_inits _ _).2 hdone))
  have hnormal : ∀ c ∈ before ++ during, c.Normal := by
    intro c hc
    simp only [before, during, List.cons_append, List.nil_append, List.mem_cons, List.not_mem_nil,
      or_false] at hc
    rcases hc with rfl | rfl | rfl | rfl | rfl | rfl | rfl | rfl
    all_goals first | exact Command.normal_connected _ _ | trivial
  have hwiden : Command.Widen 8 (before ++ during) := List.pairwise_pair.2 (by decide)
  exact ⟨hnormal, hwiden, hstay,
    players_keep_their_order .keyless {} [] before during hnormal hwiden "d" "c" hstay [] during
      List.nil_prefix List.prefix_rfl⟩

end PlayerSlots
