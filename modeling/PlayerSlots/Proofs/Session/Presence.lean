import Mathlib
import PlayerSlots.Proofs.Session.Reports
import PlayerSlots.Proofs.Session.Soundness

/-! # Who is connected

Single reports change the list of the connected devices in place, and a full report makes a new one.
All the same the list is a function of what was reported, and of nothing else.

* `Recounts`: the list that follows from what was reported. `Recounts.unique` says that there is one
  such list, `Recounts.step` that a command keeps to it.
* `Worker.run_without_passes`: what comes of reports while passes are off.
* `connected_follows_reports`: every run leads to the list that follows.
-/

namespace PlayerSlots
set_option autoImplicit false

variable {provider : Provider} {commands : List Command} {c : Command} {i : String}

open Command (lastWord? lastName? Began)

/-! ## The list of the connected devices -/

/-- The list that follows from what was reported. A device is in it iff the last word says so, and
once. Presences that began earlier come first, those that began together in the order of their full
report. Each device has the last name that was reported for it. -/
structure Recounts (commands : List Command) (connected : List Device) : Prop where
  mem_iff : ∀ i, i ∈ connected.map (·.id) ↔ i ≠ "" ∧ lastWord? i commands = some true
  distinct : (connected.map (·.id)).Nodup
  ordered : (connected.map (·.id)).Pairwise fun i j =>
    ∀ k p l q, Began commands i k p → Began commands j l q → k < l ∨ k = l ∧ p < q
  named : ∀ d ∈ connected, lastName? d.id commands = some d.name

namespace Recounts

variable {ds es : List Device}

theorem nil : Recounts [] [] where
  mem_iff i := iff_of_false (by simp) (by simp [lastWord?])
  distinct := List.nodup_nil
  ordered := List.Pairwise.nil
  named := nofun

/-- What was reported leaves no choice. -/
theorem unique (h : Recounts commands ds) (h' : Recounts commands es) : ds = es := by
  have hids : ds.map (·.id) = es.map (·.id) := by
    have hperm : (ds.map (·.id)).Perm (es.map (·.id)) := by
      rw [List.perm_ext_iff_of_nodup h.distinct h'.distinct]
      exact fun i => (h.mem_iff i).trans (h'.mem_iff i).symm
    refine hperm.eq_of_pairwise ?_ h.ordered h'.ordered
    -- two presences cannot each have begun before the other
    intro i j hi hj hij hji
    obtain ⟨k, p, hk⟩ := (Command.exists_began_iff i commands).2 ((h.mem_iff i).1 hi).2
    obtain ⟨l, q, hl⟩ := (Command.exists_began_iff j commands).2 ((h'.mem_iff j).1 hj).2
    have hlt := hij k p l q hk hl
    have hgt := hji l q k p hl hk
    omega
  have hread : ∀ l : List Device, (∀ d ∈ l, lastName? d.id commands = some d.name) →
      l = (l.map (·.id)).map fun i => ⟨i, (lastName? i commands).getD ""⟩ := by
    intro l hl
    rw [List.map_map]
    refine (List.map_id l).symm.trans (List.map_congr_left fun d hd => ?_)
    simp [hl d hd]
  rw [hread ds h.named, hread es h'.named, hids]

/-- A single report does not change the order of those who were there. -/
theorem ordered_concat (h : Recounts commands ds) (hc : c.fullList? = none) :
    (ds.map (·.id)).Pairwise fun i j => ∀ k p l q, Began (commands ++ [c]) i k p →
      Began (commands ++ [c]) j l q → k < l ∨ k = l ∧ p < q := by
  refine h.ordered.imp_of_mem fun {i j} hi hj hij k p l q hk hl => ?_
  exact hij k p l q (hk.of_concat hc ((h.mem_iff i).1 hi).2)
    (hl.of_concat hc ((h.mem_iff j).1 hj).2)

/-- A command that says nothing about any device with an id. -/
theorem silent (h : Recounts commands ds) (hc : c.fullList? = none)
    (hword : ∀ i, i ≠ "" → c.word? i = none) : Recounts (commands ++ [c]) ds where
  mem_iff i := by
    rw [h.mem_iff, Command.lastWord?_concat]
    exact and_congr_right fun hi => by rw [hword i hi]; rfl
  distinct := h.distinct
  ordered := h.ordered_concat hc
  named d hd := by
    have hid : d.id ≠ "" := ((h.mem_iff d.id).1 (List.mem_map_of_mem hd)).1
    rw [Command.lastName?_concat _ _ hc, Command.nameFor?_of_word?_eq_none (hword d.id hid)]
    exact h.named d hd

/-- A device that is there already gets its new name. -/
theorem connect_known (h : Recounts commands ds) {d : Device} (hd : d.id ∈ ds.map (·.id)) :
    Recounts (commands ++ [.connect d])
      (ds.map fun e => if e.id = d.id then { e with name := d.name } else e) := by
  have hids : (ds.map fun e => if e.id = d.id then { e with name := d.name } else e).map (·.id)
      = ds.map (·.id) := by
    rw [List.map_map]
    refine List.map_congr_left fun e _ => ?_
    by_cases he : e.id = d.id <;> simp [he]
  refine { mem_iff := ?_, distinct := ?_, ordered := ?_, named := ?_ }
  · intro i
    rw [hids, Command.lastWord?_concat, Command.word?]
    split
    · rename_i hi
      subst hi
      exact iff_of_true hd ⟨((h.mem_iff _).1 hd).1, rfl⟩
    · exact h.mem_iff i
  · rw [hids]
    exact h.distinct
  · rw [hids]
    exact h.ordered_concat rfl
  · intro e he
    obtain ⟨f, hf, rfl⟩ := List.mem_map.1 he
    rw [Command.lastName?_concat _ _ rfl, Command.nameFor?]
    by_cases hfd : f.id = d.id
    · simp [hfd]
    · rw [if_neg hfd, if_neg (Ne.symm hfd)]
      exact h.named f hf

/-- A device that was not there comes last. -/
theorem connect_new (h : Recounts commands ds) {d : Device} (hne : d.id ≠ "")
    (hd : d.id ∉ ds.map (·.id)) : Recounts (commands ++ [.connect d]) (ds ++ [d]) := by
  have habsent : lastWord? d.id commands ≠ some true := fun hthere =>
    hd ((h.mem_iff d.id).2 ⟨hne, hthere⟩)
  refine { mem_iff := ?_, distinct := ?_, ordered := ?_, named := ?_ }
  · intro i
    rw [List.map_append, List.mem_append, List.map_singleton, List.mem_singleton,
      Command.lastWord?_concat, Command.word?]
    split
    · rename_i hi
      subst hi
      exact iff_of_true (.inr rfl) ⟨hne, rfl⟩
    · rename_i hi
      rw [h.mem_iff]
      exact or_iff_left (Ne.symm hi)
  · rw [List.map_append, List.map_singleton, ← List.concat_eq_append]
    exact (List.nodup_concat _ _).2 ⟨hd, h.distinct⟩
  · rw [List.map_append, List.map_singleton, List.pairwise_append]
    refine ⟨h.ordered_concat rfl, List.pairwise_singleton _ _, ?_⟩
    intro i hi j hj k p l q hk hl
    rw [List.mem_singleton.1 hj] at hl
    left
    rw [hl.eq_length habsent]
    exact (hk.of_concat rfl ((h.mem_iff i).1 hi).2).lt_length
  · intro e he
    rw [Command.lastName?_concat _ _ rfl, Command.nameFor?]
    rcases List.mem_append.1 he with he | he
    · have hed : d.id ≠ e.id := fun heq => hd (heq ▸ List.mem_map_of_mem he)
      rw [if_neg hed]
      exact h.named e he
    · rw [List.mem_singleton.1 he, if_pos rfl]
      rfl

theorem disconnect (h : Recounts commands ds) (id : String) :
    Recounts (commands ++ [.disconnect id]) (ds.filter (·.id ≠ normalizeId id)) := by
  have hsub : ((ds.filter (·.id ≠ normalizeId id)).map (·.id)).Sublist (ds.map (·.id)) :=
    List.filter_sublist.map _
  refine { mem_iff := ?_, distinct := ?_, ordered := ?_, named := ?_ }
  · intro i
    have hmem : i ∈ (ds.filter (·.id ≠ normalizeId id)).map (·.id)
        ↔ i ∈ ds.map (·.id) ∧ i ≠ normalizeId id := by
      simp only [List.mem_map, List.mem_filter, decide_eq_true_eq]
      constructor
      · rintro ⟨d, ⟨hd, hne⟩, rfl⟩
        exact ⟨⟨d, hd, rfl⟩, hne⟩
      · rintro ⟨⟨d, hd, rfl⟩, hne⟩
        exact ⟨d, ⟨hd, hne⟩, rfl⟩
    rw [hmem, Command.lastWord?_concat, Command.word?]
    split
    · rename_i hi
      exact iff_of_false (fun hin => hin.2 hi.symm) (fun hin => by cases hin.2)
    · rename_i hi
      rw [and_iff_left (Ne.symm hi)]
      exact h.mem_iff i
  · exact hsub.nodup h.distinct
  · exact (h.ordered_concat rfl).sublist hsub
  · intro d hd
    rw [Command.lastName?_concat _ _ rfl]
    exact h.named d (List.mem_filter.1 hd).1

theorem resync (commands : List Command) (ds : List Device) :
    Recounts (commands ++ [.resync ds]) (Slot.present ds) where
  mem_iff i := by
    rw [Slot.mem_ids_present, and_comm, Command.lastWord?_concat, Command.word?]
    simp
  distinct := Slot.ids_present_nodup ds
  ordered := by
    refine (Slot.ids_present_pairwise ds).imp fun {i j} hij k p l q hk hl => ?_
    -- everyone who is there has been there since this report
    rcases Command.began_concat_iff.1 hk with ⟨-, hnone, -⟩ | ⟨rfl, ⟨⟩⟩
    · cases hnone
    rcases Command.began_concat_iff.1 hl with ⟨-, hnone, -⟩ | ⟨rfl, ⟨⟩⟩
    · cases hnone
    exact .inr ⟨rfl, hij⟩
  named d hd := by
    rw [Command.lastName?_resync, Slot.find?_of_mem_present hd]
    rfl

end Recounts

namespace Session

/-- What becomes of the connected devices depends on nothing else in the session. -/
theorem connected_step (provider : Provider) (s : Session) (c : Command) :
    (s.step provider c).1.connected =
      match c with
      | .connect d => (s.connect d).connected
      | .disconnect id => s.connected.filter (·.id ≠ normalizeId id)
      | .resync ds => Slot.present ds
      | _ => s.connected := by
  cases c with
  | update settings =>
    rw [step]
    split
    · rfl
    · exact connected_pass _
  | connect d => exact connected_pass _
  | disconnect id => exact connected_pass _
  | resync ds => exact connected_pass _
  | refresh => exact connected_pass _
  | _ => rfl

end Session

theorem Recounts.step {s : Session} (h : Recounts commands s.connected) (provider : Provider)
    (c : Command) : Recounts (commands ++ [c]) (s.step provider c).1.connected := by
  rw [Session.connected_step]
  cases c with
  | connect d =>
    show Recounts _ (s.connect d).connected
    unfold Session.connect
    by_cases hblank : d.id = ""
    · rw [if_pos hblank]
      exact h.silent rfl fun i hi => if_neg fun hd => hi (hd.symm.trans hblank)
    · rw [if_neg hblank]
      by_cases hd : d.id ∈ s.connected.map (·.id)
      · rw [if_pos hd]
        exact h.connect_known hd
      · rw [if_neg hd]
        exact h.connect_new hblank hd
  | disconnect id => exact h.disconnect id
  | resync ds => exact .resync commands ds
  | _ => exact h.silent rfl fun _ _ => rfl

/-- The induction is over the commands; `before` are those that led to the session. -/
theorem Worker.recounts_run {before commands : List Command} {s t : Session}
    (h : Recounts before s.connected)
    (hrun : ((running s).run provider commands).1 = running t) :
    Recounts (before ++ commands) t.connected := by
  induction commands generalizing before s with
  | nil =>
    cases hrun
    rwa [List.append_nil]
  | cons c rest ih =>
    by_cases hc : c = .shutdown
    · simp [run, Worker.step, hc] at hrun
    · rw [run_cons_running hc] at hrun
      rw [List.append_cons]
      exact ih (h.step provider c) hrun

/-! ## Without passes -/

namespace Session

theorem Prepares.settings_eq {s s₁ : Session} (h : s.Prepares c s₁) (hc : c.limit? = none) :
    s₁.settings = s.settings := by
  cases h with
  | connect d => exact settings_connect s d
  | update settings _ => cases hc
  | _ => rfl

theorem step_of_disabled (provider : Provider) {s : Session} (hoff : s.settings.enabled = false)
    (hc : c.limit? = none) :
    (s.step provider c).1.settings = s.settings ∧ (s.step provider c).1.table = s.table := by
  rcases step_cases provider s c with ⟨s₁, hs₁, hstep⟩ | hquiet
  · have hsettings := hs₁.settings_eq hc
    rw [hstep, pass_of_disabled (by rw [hsettings, hoff])]
    exact ⟨hsettings, hs₁.table_eq_of_limit (by rw [hc]; nofun)⟩
  · rw [hquiet.session]
    exact ⟨rfl, rfl⟩

/-- New settings that turn passes off for the same number of positions change nothing else. -/
theorem step_update_off (provider : Provider) {s : Session} {off : AutoAssign}
    (hoff : off.enabled = false) (hmax : off.maxSlots = s.settings.maxSlots) :
    (s.step provider (.update off)).1.settings = off ∧
      (s.step provider (.update off)).1.table = s.table := by
  rw [step]
  split
  · rename_i heq
    exact ⟨heq.symm, rfl⟩
  · have hdisabled : (s.update off).settings.enabled = false := hoff
    rw [pass_of_disabled hdisabled]
    exact ⟨rfl, if_pos hmax⟩

end Session

/-- After some time without passes, the pass over everyone who is there now comes to the same as one
full report would have done. -/
theorem Worker.run_without_passes {s : Session} (h : s.Sound) {off on : AutoAssign}
    (hoff : off.enabled = false) (hon : on.enabled = true)
    (hoffmax : off.maxSlots = s.settings.maxSlots) (honmax : on.maxSlots = s.settings.maxSlots)
    {between : List Command} (hopen : .shutdown ∉ between)
    (hlimit : ∀ c ∈ between, c.limit? = none) :
    ∃ t, ((running s).run provider (.update off :: between ++ [.update on])).1 = running t ∧
      ∀ s₀ : Session, s₀.settings = on → s₀.table = s.table →
        ((running s₀).step provider (.resync t.connected)).1 = running t := by
  obtain ⟨hsettings, htable⟩ := Session.step_update_off provider hoff hoffmax
  rcases run_cases provider (s.step provider (.update off)).1 between with ⟨hmem, -⟩ | ⟨-, u, hu⟩
  · exact absurd hmem hopen
  have hkept : u.Sound ∧ u.settings = off ∧ u.table = s.table := by
    refine run_induct (P := fun u => u.Sound ∧ u.settings = off ∧ u.table = s.table) ?_
      ⟨h.step _, hsettings, htable⟩ hu
    rintro v ⟨hv, hvsettings, hvtable⟩ c hc
    have hstep := Session.step_of_disabled provider (by rw [hvsettings, hoff]) (hlimit c hc)
    exact ⟨hv.step c, hstep.1.trans hvsettings, hstep.2.trans hvtable⟩
  obtain ⟨hsound, husettings, hutable⟩ := hkept
  have hne : on ≠ u.settings := by
    rintro rfl
    rw [husettings, hoff] at hon
    cases hon
  have hpass := (Session.Prepares.update on hne).step_eq provider
  refine ⟨((u.update on).pass provider).1, ?_, ?_⟩
  · rw [List.cons_append, run_cons_running (by nofun), run_append, hu, run_cons_running (by nofun),
      hpass]
    rfl
  · intro s₀ hs₀ htable₀
    have hlist : Slot.present u.connected = u.connected :=
      Slot.present_eq_self hsound.present hsound.distinct
    have hsame : s₀.resync u.connected = u.update on := by
      have hmax : on.maxSlots = u.settings.maxSlots := by rw [honmax, husettings, hoffmax]
      rw [Session.resync, Session.update, if_pos hmax, hlist, htable₀, hs₀, hutable]
    rw [Session.connected_pass, step_running (by nofun)]
    show running ((s₀.resync u.connected).pass provider).1 = _
    rw [hsame]

/-- After every run from any start the connected devices are exactly those that follow from what was
reported, unless a shutdown has ended it. So nobody is left when each of several clients, whose
commands come in any order, reports everyone gone whom it has reported. And when passes are turned
off and on again, for the same number of positions, the session is as after one full report of who
is there now, from the same table, whoever came and went meanwhile. -/
theorem connected_follows_reports (provider : Provider) :
    (∀ (settings : AutoAssign) (saved : List Slot) (commands : List Command),
      (.shutdown ∈ commands ∧
        ((Worker.running (.start settings saved)).run provider commands).1 = .stopped) ∨
      ∃ s, ((Worker.running (.start settings saved)).run provider commands).1 = .running s ∧
        Recounts commands s.connected ∧ ∀ ds, Recounts commands ds → ds = s.connected) ∧
    (∀ (settings : AutoAssign) (saved : List Slot) (sent : List (Nat × Command)),
      (∀ m ∈ sent, m.2.fullList? = none) →
      (∀ client, Command.LeavesNobody (Command.sentBy client sent)) →
      ((Worker.running (.start settings saved)).run provider (sent.map (·.2))).1.connected = []) ∧
    (∀ (s : Session) (off on : AutoAssign) (between : List Command), s.Reachable provider →
      off.enabled = false → on.enabled = true →
      off.maxSlots = s.settings.maxSlots → on.maxSlots = s.settings.maxSlots →
      .shutdown ∉ between → (∀ c ∈ between, c.limit? = none) →
      ∃ t, ((Worker.running s).run provider (.update off :: between ++ [.update on])).1
          = .running t ∧
        ∀ s₀ : Session, s₀.settings = on → s₀.table = s.table →
          ((Worker.running s₀).step provider (.resync t.connected)).1 = .running t) := by
  have hrecount : ∀ {settings saved commands s},
      ((Worker.running (.start settings saved)).run provider commands).1 = .running s →
        Recounts commands s.connected := fun hrun => by
    simpa only [List.nil_append] using Worker.recounts_run .nil hrun
  refine ⟨?_, ?_, ?_⟩
  · intro settings saved commands
    rcases Worker.run_cases provider (.start settings saved) commands with hend | ⟨-, s, hrun⟩
    · exact .inl hend
    · exact .inr ⟨s, hrun, hrecount hrun, fun ds hds => hds.unique (hrecount hrun)⟩
  · intro settings saved sent hlists hleave
    rcases Worker.run_cases provider (.start settings saved) (sent.map (·.2))
      with ⟨-, hend⟩ | ⟨-, s, hrun⟩
    · rw [hend]
      rfl
    · rw [hrun]
      show s.connected = []
      rw [← List.map_eq_nil_iff (f := fun d : Device => d.id), List.eq_nil_iff_forall_not_mem]
      intro i hi
      exact Command.LeavesNobody.lastWord?_ne hlists hleave i (((hrecount hrun).mem_iff i).1 hi).2
  · intro s off on between hs hoff hon hoffmax honmax hopen hlimit
    exact Worker.run_without_passes hs.sound hoff hon hoffmax honmax hopen hlimit

/-- A full report names a device twice, another one is renamed by its driver and a third one goes;
two clients share a device; and a device comes while passes are off. -/
theorem connected_follows_reports_renamed :
    let commands : List Command :=
      [.connected "a Pad" "Left", .connected "b" "Pad",
        .resync [⟨"c", "Pad"⟩, ⟨"", "Pad"⟩, ⟨"b", "New"⟩, ⟨"c", "Old"⟩], .refresh,
        .connected "a" "Right", .connected "c Pad" "Pro", .disconnected "b Pad"]
    let sent : List (Nat × Command) :=
      [(0, .connected "a" "Pad"), (1, .connected "b" "Pad"), (1, .connected "a Pad" "Pad"),
        (0, .disconnected "a Pad"), (0, .askSlots), (1, .disconnected "a"), (1, .disconnected "b")]
    let s := Session.start { maxSlots := 4 } [⟨2, "c", .keyboard ⟨.pro, .empty⟩⟩]
    let off : AutoAssign := { enabled := false, maxSlots := 4, overflow := .wrap }
    let between : List Command := [.connected "b" "Pad", .refresh, .connected "c" "Pad"]
    (∃ s, ((Worker.running (.start {} [])).run .keyless commands).1 = .running s ∧
      s.connected = [⟨"c", "Pro"⟩, ⟨"a", "Right"⟩] ∧ Recounts commands s.connected) ∧
    (∀ m ∈ sent, m.2.fullList? = none) ∧
    (∀ client, Command.LeavesNobody (Command.sentBy client sent)) ∧
    ((Worker.running (.start {} [])).run .keyless (sent.map (·.2))).1.connected = [] ∧
    s.Reachable .keyless ∧ .shutdown ∉ between ∧ (∀ c ∈ between, c.limit? = none) ∧
    ∃ t, ((Worker.running s).run .keyless
        (.update off :: between ++ [.update { maxSlots := 4 }])).1 = .running t ∧
      ∀ s₀ : Session, s₀.settings = { maxSlots := 4 } → s₀.table = s.table →
        ((Worker.running s₀).step .keyless (.resync t.connected)).1 = .running t := by
  intro commands sent s off between
  have hconnected : ((Worker.running (.start {} [])).run .keyless commands).1.connected
      = [⟨"c", "Pro"⟩, ⟨"a", "Right"⟩] := by cbv
  have hrun : ∃ s, ((Worker.running (.start {} [])).run .keyless commands).1 = .running s ∧
      s.connected = [⟨"c", "Pro"⟩, ⟨"a", "Right"⟩] ∧ Recounts commands s.connected := by
    rcases (connected_follows_reports .keyless).1 {} [] commands
      with ⟨hmem, -⟩ | ⟨s, hs, hrecounts, -⟩
    · simp [commands, Command.connected, Command.disconnected] at hmem
    · rw [hs] at hconnected
      exact ⟨s, hs, hconnected, hrecounts⟩
  have hlists : ∀ m ∈ sent, m.2.fullList? = none := by
    simp [sent, Command.fullList?, Command.connected, Command.disconnected]
  have ha : normalizeId "a Pad" = normalizeId "a" := by cbv
  have hleave : ∀ client, Command.LeavesNobody (Command.sentBy client sent) := by
    intro client
    by_cases h0 : client = 0
    · subst h0
      simp [sent, Command.sentBy, Command.leavesNobody_cons_iff, Command.leavesNobody_nil,
        Command.connected, Command.disconnected, ha]
    by_cases h1 : client = 1
    · subst h1
      simp [sent, Command.sentBy, Command.leavesNobody_cons_iff, Command.leavesNobody_nil,
        Command.connected, Command.disconnected, ha]
    · have hnone : Command.sentBy client sent = [] := by
        simp [sent, Command.sentBy, Ne.symm h0, Ne.symm h1]
      rw [hnone]
      exact Command.leavesNobody_nil
  have hs : s.Reachable .keyless := ⟨_, _, [], rfl⟩
  have hopen : .shutdown ∉ between := by simp [between, Command.connected]
  have hlimit : ∀ c ∈ between, c.limit? = none := by
    simp [between, Command.limit?, Command.connected]
  exact ⟨hrun, hlists, hleave,
    (connected_follows_reports .keyless).2.1 {} [] sent hlists hleave, hs, hopen, hlimit,
    (connected_follows_reports .keyless).2.2 s off { maxSlots := 4 } between hs rfl rfl rfl rfl
      hopen hlimit⟩

end PlayerSlots
