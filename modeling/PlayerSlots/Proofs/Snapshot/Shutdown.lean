import PlayerSlots.Proofs.Snapshot.Desk

/-! # Ending a keeper

A request to end is handed in like a snapshot, so it needs room, and nobody is told when there is
none. One that finds room is as good as done: the keeper serves what came before it, writes what is
left and is gone, whatever its users do meanwhile. One that finds none has never been made.

* `Desk.Ledger`: a keeper has been told what came, in this order, except for what still waits and
  for what the end dropped; preserved by each event, so it holds of each run.
* `Desk.ahead`: how often the keeper has to get on until it is asked to end.
* `shutdown_heeded_iff`: which requests to end are heeded, and what they leave.
* `full_queue_loses_shutdown`: one that is not.
-/

namespace PlayerSlots
set_option autoImplicit false

/-! ## What a keeper has been told -/

/-- The request that an event serves. Time passes without one. -/
def KeeperEvent.request? : KeeperEvent → Option Request
  | .save s _ => some (.save s)
  | .load => some .load
  | .flush => some .flush
  | .tick _ => none
  | .stop => some .shutdown

@[simp] theorem Request.request?_event (now : Nat) (r : Request) :
    (r.event now).request? = some r := by
  cases r <;> rfl

theorem Request.event_eq_stop_iff (now : Nat) (r : Request) :
    r.event now = .stop ↔ r = .shutdown := by
  cases r <;> simp [event]

/-- The snapshots among some requests. -/
def Request.snapshots (requests : List Request) : List Snapshot :=
  requests.filterMap fun
    | .save s => some s
    | _ => none

namespace Keeper

/-- The requests that a keeper has served. -/
def served (done : List KeeperEvent) : List Request := done.filterMap KeeperEvent.request?

@[simp] theorem served_concat (done : List KeeperEvent) (e : KeeperEvent) :
    served (done ++ [e]) = served done ++ e.request?.toList := by
  rw [served, served, List.filterMap_append]
  cases h : e.request? <;> simp [h]

theorem shutdown_mem_served_iff {done : List KeeperEvent} :
    .shutdown ∈ served done ↔ .stop ∈ done := by
  rw [served, List.mem_filterMap]
  refine ⟨fun ⟨e, he, hr⟩ => ?_, fun h => ⟨.stop, h, rfl⟩⟩
  cases e <;> simp_all [KeeperEvent.request?]

theorem saves_eq_snapshots {done : List KeeperEvent} (h : .stop ∉ done) :
    saves done = Request.snapshots (served done) := by
  induction done with
  | nil => rfl
  | cons e done ih =>
    rw [List.mem_cons, not_or] at h
    rw [saves_cons (Ne.symm h.1), ih h.2]
    cases e <;> rfl

theorem run_concat (k : Keeper) (done : List KeeperEvent) (e : KeeperEvent) :
    (k.run (done ++ [e])).1 = ((k.run done).1.step e).1 := by
  rw [run_append]
  rfl

/-- A keeper that has ended has written all that it was to keep. -/
theorem stored_run_stop (debounce : Nat) (seed : Option (List UInt8)) {done : List KeeperEvent}
    (h : .stop ∉ done) :
    ((start debounce seed).run (done ++ [.stop])).1.stored =
      contents seed (Request.snapshots (served done)) := by
  have hprompt : (start debounce seed).Prompt := fun _ => rfl
  have hnone := hprompt.pending_run (List.getLast?_concat (l := done)) (.inr rfl)
  obtain ⟨n, -, hbehind⟩ := (Behind.start debounce seed).run rfl (done ++ [.stop])
  have hstored := hbehind.contents_take
  have hsaves : saves (done ++ [.stop]) = saves done := by
    rw [saves_append h]
    exact List.append_nil _
  rw [hbehind.pending_eq_none_iff.1 hnone, List.take_length, List.nil_append, hsaves,
    saves_eq_snapshots h] at hstored
  exact hstored

end Keeper

namespace Desk

variable {d d' : Desk} {e : DeskEvent} {events : List DeskEvent} {came : List Request}

/-! ## What has become of the requests -/

/-- How a desk has come about. The keeper has been told some events, and the requests that came are
those it served, in this order, and those that wait; or it has ended, and the requests that came
after the end was asked for are lost. -/
inductive Ledger (debounce : Nat) (seed : Option (List UInt8)) (came : List Request) (d : Desk) :
    Prop where
  | running (done : List KeeperEvent) (hstop : .stop ∉ done)
      (hkeeper : d.keeper = ((Keeper.start debounce seed).run done).1)
      (hcame : came = Keeper.served done ++ d.waiting)
  | ended (done : List KeeperEvent) (lost : List Request) (hstop : .stop ∉ done)
      (hdesk : d = { keeper := ((Keeper.start debounce seed).run (done ++ [.stop])).1 })
      (hcame : came = Keeper.served done ++ .shutdown :: lost)

variable {debounce : Nat} {seed : Option (List UInt8)}

theorem Ledger.start (debounce : Nat) (seed : Option (List UInt8)) :
    Ledger debounce seed [] (.start debounce seed) :=
  .running [] List.not_mem_nil rfl rfl

theorem isOpen_of_keeper_eq {done : List KeeperEvent} (hstop : .stop ∉ done)
    (hkeeper : d.keeper = ((Keeper.start debounce seed).run done).1) : d.keeper.isOpen = true := by
  rw [hkeeper]
  exact (Keeper.isOpen_run rfl done).2 hstop

theorem isOpen_run_stop (debounce : Nat) (seed : Option (List UInt8)) (done : List KeeperEvent) :
    ((Keeper.start debounce seed).run (done ++ [.stop])).1.isOpen = false := by
  rw [Keeper.run_concat]
  exact Keeper.isOpen_step_stop _

theorem Ledger.step (h : Ledger debounce seed came d) {r : Option Request}
    (hstep : d.Step e d' r) : Ledger debounce seed (came ++ r.toList) d' := by
  cases h with
  | ended done lost hstop hdesk hcame =>
    subst hdesk
    obtain ⟨rfl, rfl⟩ := Step.eq_of_ended (isOpen_run_stop debounce seed done) hstep
    exact .ended done lost hstop rfl (by rw [hcame]; exact List.append_nil _)
  | running done hstop hkeeper hcame =>
    subst hcame
    cases hstep with
    | hand hr hroom =>
      exact .running done hstop hkeeper (by rw [waiting_concat, List.append_assoc]; rfl)
    | enter hq hroom =>
      exact .running done hstop hkeeper (by rw [waiting_concat, List.append_assoc]; rfl)
    | refuse | ask | askClosed => exact .running done hstop hkeeper (List.append_nil _)
    | take hidle hr => exact .running done hstop hkeeper (by simp [waiting, hidle, hr])
    | tick now hidle =>
      refine .running (done ++ [.tick now]) (by simp [hstop]) ?_ ?_
      · rw [Keeper.run_concat, ← hkeeper]
      · rw [Keeper.served_concat]
        simp [KeeperEvent.request?, waiting]
    | @finish r now hr =>
      -- The request at work is the first of those that wait, so it is served in its turn. If it is
      -- the one to end, the rest is dropped.
      have hwaiting := waiting_of_current hr
      have htold : (d.keeper.step (r.event now)).1 =
          ((Keeper.start debounce seed).run (done ++ [r.event now])).1 := by
        rw [Keeper.run_concat, ← hkeeper]
      by_cases hend : r = .shutdown
      · subst hend
        refine .ended done d.queue hstop ?_ (by simp [hwaiting])
        rw [resume, htold]
        exact if_neg (Bool.not_eq_true _ ▸ isOpen_run_stop debounce seed done)
      · have hevent : r.event now ≠ .stop := mt (Request.event_eq_stop_iff now r).1 hend
        have hnew : .stop ∉ done ++ [r.event now] := by simp [hstop, hevent.symm]
        have hopen := (Keeper.isOpen_run (k := .start debounce seed) rfl _).2 hnew
        rw [resume, htold, if_pos hopen]
        refine .running (done ++ [r.event now]) hnew rfl ?_
        rw [Keeper.served_concat, hwaiting]
        simp [waiting]

theorem Ledger.run (h : Ledger debounce seed came d) {more : List Request}
    (hrun : d.run events = some (d', more)) : Ledger debounce seed (came ++ more) d' := by
  induction events generalizing d came more with
  | nil =>
    cases hrun
    rw [List.append_nil]
    exact h
  | cons e rest ih =>
    obtain ⟨d₁, r, late, hstep, hrest, rfl⟩ := run_cons_eq_some_iff.1 hrun
    rw [← List.append_assoc]
    exact ih (h.step (.of_step? hstep)) hrest

/-- A keeper that is at rest has ended, if it was asked to. -/
theorem Ledger.isOpen_eq_false (h : Ledger debounce seed came d) (hdrained : d.IsDrained)
    (hend : .shutdown ∈ came) : d.keeper.isOpen = false := by
  cases h with
  | running done hstop hkeeper hcame =>
    rw [hcame, isDrained_iff.1 hdrained, List.append_nil] at hend
    exact absurd (Keeper.shutdown_mem_served_iff.1 hend) hstop
  | ended done lost hstop hdesk hcame =>
    rw [hdesk]
    exact isOpen_run_stop debounce seed done

/-! ## How far the end is -/

/-- How often the keeper has to get on until it has ended: for each request in front of the first one
to end, and for that one, it takes the request and finishes with it. -/
def ahead (d : Desk) : Nat :=
  2 * d.waiting.idxOf .shutdown + if d.current = none then 2 else 1

theorem ahead_pos (d : Desk) : 0 < d.ahead := by
  rw [ahead]
  split <;> omega

/-- Users only add behind what waits, so the end gets nearer each time the keeper gets on, and never
further. -/
theorem Step.ahead {r : Option Request} (h : d.Step e d' r) (hopen : d'.keeper.isOpen = true)
    (hend : .shutdown ∈ d.waiting) :
    .shutdown ∈ d'.waiting ∧ d'.ahead + [e].countP DeskEvent.isServing = d.ahead := by
  have hadded : ∀ (request : Request) (line : List Question),
      let d₁ : Desk := { d with queue := d.queue ++ [request], line }
      .shutdown ∈ d₁.waiting ∧ d₁.ahead = d.ahead := by
    intro request line d₁
    rw [Desk.ahead, Desk.ahead, waiting_concat, List.idxOf_append_of_mem hend]
    exact ⟨List.mem_append_left _ hend, rfl⟩
  cases h with
  | hand hr hroom =>
    rw [List.countP_singleton, DeskEvent.isServing_of_handed? hr]
    exact hadded _ _
  | refuse hr hroom =>
    rw [List.countP_singleton, DeskEvent.isServing_of_handed? hr]
    exact ⟨hend, rfl⟩
  | ask | askClosed => exact ⟨hend, rfl⟩
  | enter hq hroom => exact hadded _ _
  | take hidle hr =>
    have hwaiting : d.waiting = d.queue := by rw [waiting, hidle]; rfl
    rw [hwaiting, hr] at hend
    rw [Desk.ahead, Desk.ahead, hwaiting, hidle, hr]
    exact ⟨hend, rfl⟩
  | tick now hidle => exact ⟨hend, rfl⟩
  | @finish r now hr =>
    rw [keeper_resume] at hopen
    have hwaiting := waiting_of_current hr
    have hother : r ≠ .shutdown := by
      rintro rfl
      have hclosed : (d.keeper.step (Request.event now .shutdown)).1.isOpen = false :=
        Keeper.isOpen_step_stop d.keeper
      simp [hclosed] at hopen
    rw [hwaiting] at hend
    rw [resume, if_pos hopen, Desk.ahead, Desk.ahead, hwaiting, hr, List.idxOf_cons_ne _ hother]
    refine ⟨(List.mem_cons.1 hend).resolve_left hother.symm, ?_⟩
    change 2 * d.queue.idxOf .shutdown + 2 + 1 = 2 * (d.queue.idxOf .shutdown + 1) + 1
    omega

theorem ahead_run (hrun : d.run events = some (d', came)) (hopen : d'.keeper.isOpen = true)
    (hend : .shutdown ∈ d.waiting) : d'.ahead + events.countP DeskEvent.isServing = d.ahead := by
  induction events generalizing d came with
  | nil =>
    cases hrun
    rfl
  | cons e rest ih =>
    obtain ⟨d₁, r, late, hstep, hrest, -⟩ := run_cons_eq_some_iff.1 hrun
    have hopen₁ : d₁.keeper.isOpen = true :=
      Bool.of_not_eq_false fun hclosed => by simp [isOpen_run_eq_false hrest hclosed] at hopen
    obtain ⟨hend₁, hahead⟩ := (Step.of_step? hstep).ahead hopen₁ hend
    rw [← hahead, ← ih hrest hend₁, ← List.singleton_append, List.countP_append]
    omega

/-- Where there is room for a request to end, the end is near. -/
theorem ahead_le (hroom : d.refusal? = none) :
    ({ d with queue := d.queue ++ [.shutdown] } : Desk).ahead ≤ 2 * Mailbox.capacity + 1 := by
  have hplaces := (refusal?_eq_none_iff.1 hroom).2
  have hindex := List.idxOf_lt_length_of_mem
    (List.mem_append_right d.waiting (List.mem_singleton_self Request.shutdown))
  have hlength : d.waiting.length = d.current.toList.length + d.queue.length :=
    List.length_append
  rw [List.length_append, List.length_singleton, hlength] at hindex
  rw [ahead, waiting_concat]
  cases hr : d.current with
  | none =>
    rw [hr, Option.toList_none, List.length_nil] at hindex
    rw [if_pos rfl]
    omega
  | some r =>
    rw [hr, Option.toList_some, List.length_singleton] at hindex
    rw [if_neg nofun]
    omega

/-! ## Requests to end -/

/-- A request to end finds room, as the first, after these requests have come and before these
events. -/
def Heeds (d : Desk) (events : List DeskEvent) (earlier : List Request) (later : List DeskEvent) :
    Prop :=
  .shutdown ∉ earlier ∧ ∃ before d', events = before ++ .shutdown :: later ∧
    d.run before = some (d', earlier) ∧ d'.refusal? = none

theorem step?_shutdown (hroom : d.refusal? = none) :
    d.step? .shutdown = some ({ d with queue := d.queue ++ [.shutdown] }, some .shutdown) := by
  rw [step?, hand, hroom]

/-- What is heeded comes into the queue. -/
theorem Heeds.exists_run {earlier : List Request} {later : List DeskEvent}
    (h : d.Heeds events earlier later) (hrun : d.run events = some (d', came)) :
    ∃ (d₁ : Desk) (late : List Request), d₁.refusal? = none ∧
      came = earlier ++ .shutdown :: late ∧
      ({ d₁ with queue := d₁.queue ++ [.shutdown] } : Desk).run later = some (d', late) := by
  obtain ⟨-, before, d₁, rfl, hbefore, hroom⟩ := h
  obtain ⟨d₂, early, late, hbefore', hlater, rfl⟩ := exists_run_of_append hrun
  cases hbefore.symm.trans hbefore'
  obtain ⟨d₂, r, more, hstep, hrest, rfl⟩ := run_cons_eq_some_iff.1 hlater
  cases (step?_shutdown hroom).symm.trans hstep
  exact ⟨d₁, more, hroom, rfl, hrest⟩

/-- What has come into the queue has been heeded. -/
theorem exists_heeds {earlier late : List Request} (hfirst : .shutdown ∉ earlier)
    (hrun : d.run events = some (d', earlier ++ .shutdown :: late)) :
    ∃ later, d.Heeds events earlier later := by
  -- The induction is over the events. The first request that came is that of the first event with
  -- one; the events before it brought none.
  induction events generalizing d earlier with
  | nil => simp [run] at hrun
  | cons e rest ih =>
    obtain ⟨d₁, r, more, hstep, hrest, hcame⟩ := run_cons_eq_some_iff.1 hrun
    cases r with
    | none =>
      rw [Option.toList_none, List.nil_append] at hcame
      subst hcame
      obtain ⟨later, -, before, d₂, rfl, hbefore, hroom⟩ := ih hfirst hrest
      exact ⟨later, hfirst, e :: before, d₂, rfl,
        run_cons_eq_some_iff.2 ⟨d₁, none, earlier, hstep, hbefore, rfl⟩, hroom⟩
    | some a =>
      rw [Option.toList_some, List.singleton_append] at hcame
      cases earlier with
      | nil =>
        obtain ⟨rfl, -⟩ := List.cons.inj hcame
        obtain ⟨rfl, hroom⟩ := (Step.of_step? hstep).eq_shutdown rfl
        exact ⟨rest, hfirst, [], d, rfl, rfl, hroom⟩
      | cons x earlier =>
        obtain ⟨rfl, rfl⟩ := List.cons.inj hcame
        obtain ⟨later, -, before, d₂, rfl, hbefore, hroom⟩ :=
          ih (mt (List.mem_cons_of_mem x) hfirst) hrest
        exact ⟨later, hfirst, e :: before, d₂, rfl,
          run_cons_eq_some_iff.2 ⟨d₁, some x, earlier, hstep, hbefore, rfl⟩, hroom⟩

/-- However busy its users keep it, the keeper cannot get on any more often without ending. -/
theorem Heeds.countP_le {earlier : List Request} {later : List DeskEvent}
    (h : d.Heeds events earlier later) (hrun : d.run events = some (d', came))
    (hopen : d'.keeper.isOpen = true) :
    later.countP DeskEvent.isServing ≤ 2 * Mailbox.capacity := by
  obtain ⟨d₁, late, hroom, -, hlater⟩ := h.exists_run hrun
  have hahead := ahead_run hlater hopen (by simp [waiting])
  have hnear := ahead_le hroom
  have hpos := d'.ahead_pos
  omega

/-- A keeper that has ended was asked to, and has served what came before. -/
theorem Ledger.exists_heeds (h : Ledger debounce seed came d)
    (hrun : (Desk.start debounce seed).run events = some (d, came))
    (hclosed : d.keeper.isOpen = false) :
    ∃ later done, (Desk.start debounce seed).Heeds events (Keeper.served done) later ∧
      .stop ∉ done ∧ d = { keeper := ((Keeper.start debounce seed).run (done ++ [.stop])).1 } := by
  cases h with
  | running done hstop hkeeper hcame => simp [isOpen_of_keeper_eq hstop hkeeper] at hclosed
  | ended done lost hstop hdesk hcame =>
    subst hcame
    obtain ⟨later, hheeds⟩ :=
      Desk.exists_heeds (mt Keeper.shutdown_mem_served_iff.1 hstop) hrun
    exact ⟨later, done, hheeds, hstop, hdesk⟩

/-- The keeper can always get done with what waits. -/
theorem Ledger.exists_drained (h : Ledger debounce seed came d) :
    ∃ serving d', (∀ e ∈ serving, DeskEvent.isServing e = true) ∧
      d.run serving = some (d', []) ∧ d'.IsDrained := by
  cases h with
  | ended done lost hstop hdesk hcame =>
    subst hdesk
    exact ⟨[], _, nofun, rfl, rfl, rfl⟩
  | running done hstop hkeeper hcame =>
    obtain ⟨serving, hserving, hrun⟩ := exists_run_serve 0 (isOpen_of_keeper_eq hstop hkeeper)
    refine ⟨serving, _, hserving, hrun, ?_⟩
    rw [resume]
    split <;> exact ⟨rfl, rfl⟩

end Desk

open Desk (start)

/-- What becomes of requests to end, whatever is handed in and asked, in whichever order things
happen:

* the keeper can always get done with what waits;
* when it has got done, it has ended exactly if a request to end has found room;
* from such a request until its end, it gets on at most twice for each request that has room,
  whatever is handed in and asked meanwhile;
* when it has ended, it has served just what had come before the first such request, in this order;
  the store holds the newest snapshot of these, or still what it held before if there is none, and
  nothing that is handed in or asked changes that any more. -/
theorem shutdown_heeded_iff (debounce : Nat) (seed : Option (List UInt8)) {events : List DeskEvent}
    {d : Desk} {came : List Request} (hrun : (start debounce seed).run events = some (d, came)) :
    (∃ serving d', (∀ e ∈ serving, DeskEvent.isServing e = true) ∧
      d.run serving = some (d', []) ∧ d'.IsDrained) ∧
    (d.IsDrained → (d.refusal? = some .closed ↔
      ∃ earlier later, (start debounce seed).Heeds events earlier later)) ∧
    (∀ earlier later, (start debounce seed).Heeds events earlier later →
      d.refusal? = some .closed ∨ later.countP DeskEvent.isServing ≤ 2 * Mailbox.capacity) ∧
    (d.refusal? = some .closed → ∃ earlier later done,
      (start debounce seed).Heeds events earlier later ∧
      .stop ∉ done ∧ Keeper.served done = earlier ∧
      d = { keeper := ((Keeper.start debounce seed).run (done ++ [.stop])).1 } ∧
      d.keeper.stored = Keeper.contents seed (Request.snapshots earlier) ∧
      ∀ more d' came', d.run more = some (d', came') → d' = d ∧ came' = []) := by
  have hledger := (Desk.Ledger.start debounce seed).run hrun
  rw [List.nil_append] at hledger
  rw [Desk.refusal?_eq_closed_iff]
  refine ⟨hledger.exists_drained, fun hdrained => ⟨fun hclosed => ?_, ?_⟩, ?_, fun hclosed => ?_⟩
  · obtain ⟨later, done, hheeds, -⟩ := hledger.exists_heeds hrun hclosed
    exact ⟨_, later, hheeds⟩
  · rintro ⟨earlier, later, hheeds⟩
    obtain ⟨d₁, late, -, rfl, -⟩ := hheeds.exists_run hrun
    exact hledger.isOpen_eq_false hdrained (by simp)
  · intro earlier later hheeds
    cases hopen : d.keeper.isOpen with
    | false => exact .inl rfl
    | true => exact .inr (hheeds.countP_le hrun hopen)
  · obtain ⟨later, done, hheeds, hstop, rfl⟩ := hledger.exists_heeds hrun hclosed
    exact ⟨_, later, done, hheeds, hstop, rfl, rfl, Keeper.stored_run_stop debounce seed hstop,
      fun more d' came' hmore => Desk.run_ended hclosed hmore⟩

/-- The keeper is asked to end while it is at work on a snapshot. What is handed in after that is
lost. -/
theorem shutdown_heeded_iff_at_work :
    let s : Snapshot := ⟨1, "1.0.0", []⟩
    let s' : Snapshot := ⟨2, "1.0.0", []⟩
    let events := [.save s, .take, .shutdown, .save s', .finish 5, .take, .finish 5]
    let d : Desk := { keeper := ⟨60000, some (s.bytes .compact), none, 5, false⟩ }
    (start 60000 none).run events = some (d, [.save s, .shutdown, .save s']) ∧ d.IsDrained ∧
      (start 60000 none).Heeds events [.save s] [.save s', .finish 5, .take, .finish 5] ∧
      d.refusal? = some .closed := by
  intro s s' events d
  have hrun : (start 60000 none).run events = some (d, [.save s, .shutdown, .save s']) := rfl
  have hdrained : d.IsDrained := ⟨rfl, rfl⟩
  have hheeds : (start 60000 none).Heeds events [.save s] [.save s', .finish 5, .take, .finish 5] :=
    ⟨by simp, [.save s, .take], _, rfl, rfl, rfl⟩
  exact ⟨hrun, hdrained, hheeds,
    ((shutdown_heeded_iff 60000 none hrun).2.1 hdrained).2 ⟨_, _, hheeds⟩⟩

/-- With as many snapshots waiting as there is room for, a request to end is lost. When the keeper
has got done with them it goes on, and nothing is stored. -/
theorem full_queue_loses_shutdown :
    let s : Snapshot := ⟨0, "f", []⟩
    let events := List.replicate 100 (.save s) ++
      .shutdown :: (List.replicate 100 [.take, .finish 0]).flatten
    let d : Desk := { keeper := ⟨60000, none, some s, 0, true⟩ }
    (start 60000 none).run events = some (d, List.replicate 100 (.save s)) ∧ d.IsDrained ∧
      d.refusal? = none := by
  intro s events d
  have hrun : (start 60000 none).run events = some (d, List.replicate 100 (.save s)) := by
    decide +kernel
  exact ⟨hrun, ⟨rfl, rfl⟩, rfl⟩

end PlayerSlots
