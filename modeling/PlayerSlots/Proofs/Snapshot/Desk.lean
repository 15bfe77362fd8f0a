import Mathlib
import PlayerSlots.Snapshot.Desk
import PlayerSlots.Proofs.Snapshot.WriteBehind

/-! # Runs of a desk

* `Desk.Step`: everything that one event can do at a desk.
* `Desk.run_append`, `Desk.exists_run_of_append`: a run can be cut in two anywhere.
* `Desk.exists_run_serve`: a keeper that gets on gets done with what waits, and serves it in order.
* `Desk.ofMailbox`: what can be done with a mailbox are runs of its desk.
-/

namespace PlayerSlots
set_option autoImplicit false

/-! ## One event -/

/-- The request that an event hands in. -/
def DeskEvent.handed? : DeskEvent → Option Request
  | .save s => some (.save s)
  | .shutdown => some .shutdown
  | _ => none

theorem DeskEvent.isServing_of_handed? {e : DeskEvent} {r : Request} (h : e.handed? = some r) :
    e.isServing = false := by
  cases e with
  | save | shutdown => rfl
  | ask | enter | take | finish | tick => cases h

namespace Desk

/-- The requests that the keeper has not served yet, the oldest first. -/
def waiting (d : Desk) : List Request := d.current.toList ++ d.queue

theorem waiting_of_current {d : Desk} {r : Request} (h : d.current = some r) :
    d.waiting = r :: d.queue := by
  rw [waiting, h]
  rfl

theorem waiting_concat (d : Desk) (r : Request) (line : List Question) :
    ({ d with queue := d.queue ++ [r], line } : Desk).waiting = d.waiting ++ [r] :=
  (List.append_assoc _ _ _).symm

theorem isDrained_iff {d : Desk} : d.IsDrained ↔ d.waiting = [] := by
  rw [IsDrained, waiting, List.append_eq_nil_iff, Option.toList_eq_nil_iff]

theorem refusal?_eq_closed_iff {d : Desk} :
    d.refusal? = some .closed ↔ d.keeper.isOpen = false := by
  cases hopen : d.keeper.isOpen with
  | false => simp [refusal?, hopen]
  | true => by_cases hroom : d.queue.length + d.line.length < Mailbox.capacity <;>
      simp [refusal?, hopen, hroom]

theorem refusal?_eq_none_iff {d : Desk} :
    d.refusal? = none ↔
      d.keeper.isOpen = true ∧ d.queue.length + d.line.length < Mailbox.capacity := by
  cases hopen : d.keeper.isOpen with
  | false => simp [refusal?, hopen]
  | true => simp [refusal?, hopen]

/-- What an event makes of a desk, with the request that it brings into the queue. -/
inductive Step (d : Desk) : DeskEvent → Desk → Option Request → Prop where
  | hand {e : DeskEvent} {r : Request} (hr : e.handed? = some r) (hroom : d.refusal? = none) :
      Step d e { d with queue := d.queue ++ [r] } (some r)
  | refuse {e : DeskEvent} {r : Request} (hr : e.handed? = some r) (hroom : d.refusal? ≠ none) :
      Step d e d none
  | ask (q : Question) (hopen : d.keeper.isOpen = true) :
      Step d (.ask q) { d with line := d.line ++ [q] } none
  | askClosed (q : Question) (hclosed : d.keeper.isOpen = false) : Step d (.ask q) d none
  | enter {place : Nat} {q : Question} (hq : d.line[place]? = some q)
      (hroom : d.queue.length + place < Mailbox.capacity) :
      Step d (.enter place)
        { d with queue := d.queue ++ [q.request], line := d.line.eraseIdx place } (some q.request)
  | take {r : Request} {rest : List Request} (hidle : d.current = none)
      (hr : d.queue = r :: rest) : Step d .take { d with current := some r, queue := rest } none
  | finish {r : Request} (now : Nat) (hr : d.current = some r) :
      Step d (.finish now) (d.resume (d.keeper.step (r.event now)).1) none
  | tick (now : Nat) (hidle : d.current = none) :
      Step d (.tick now) { d with keeper := (d.keeper.step (.tick now)).1 } none

theorem step_hand {d d' : Desk} {e : DeskEvent} {r : Request} {r' : Option Request}
    (hr : e.handed? = some r) (h : d.hand r = (d', r')) : d.Step e d' r' := by
  rw [hand] at h
  split at h <;> cases h
  · next hroom => exact .hand hr hroom
  · next hroom => exact .refuse hr (by simp [hroom])

theorem Step.of_step? {d d' : Desk} {e : DeskEvent} {r : Option Request}
    (h : d.step? e = some (d', r)) : d.Step e d' r := by
  cases e with
  | save s => exact step_hand rfl (Option.some.inj h)
  | shutdown => exact step_hand rfl (Option.some.inj h)
  | ask q =>
    obtain ⟨rfl, rfl⟩ := Prod.mk.inj (Option.some.inj h)
    split
    · next hopen => exact .ask q hopen
    · next hclosed => exact .askClosed q (Bool.not_eq_true _ ▸ hclosed)
  | enter place =>
    rw [step?] at h
    split at h
    · next q hq =>
      split at h
      · next hroom =>
        cases h
        exact .enter hq hroom
      · cases h
    · cases h
  | take =>
    rw [step?] at h
    split at h
    · next r rest hidle hr =>
      cases h
      exact .take hidle hr
    · cases h
  | finish now =>
    rw [step?] at h
    split at h
    · next r hr =>
      cases h
      exact .finish now hr
    · cases h
  | tick now =>
    rw [step?] at h
    split at h
    · next hidle =>
      cases h
      exact .tick now hidle
    · cases h

/-- Only a request to end brings one into the queue, and it needs room. -/
theorem Step.eq_shutdown {d d' : Desk} {e : DeskEvent} {r : Option Request} (h : d.Step e d' r)
    (hr : r = some .shutdown) : e = .shutdown ∧ d.refusal? = none := by
  cases h with
  | hand he hroom =>
    cases hr
    cases e <;> simp_all [DeskEvent.handed?]
  | @enter place q hq hroom => cases q <;> cases hr
  | _ => cases hr

/-- A keeper that is gone does not come back. -/
theorem Step.isOpen_eq_false {d d' : Desk} {e : DeskEvent} {r : Option Request}
    (h : d.Step e d' r) (hclosed : d.keeper.isOpen = false) : d'.keeper.isOpen = false := by
  cases h with
  | finish now hr => rw [Keeper.step_closed hclosed, resume, hclosed]; exact hclosed
  | tick now hidle => rw [Keeper.step_closed hclosed]; exact hclosed
  | _ => exact hclosed

/-! ## Many events -/

variable {d d' d'' : Desk} {e : DeskEvent} {events rest : List DeskEvent} {came : List Request}

theorem run_cons_eq_some_iff :
    d.run (e :: rest) = some (d'', came) ↔ ∃ d' r more, d.step? e = some (d', r) ∧
      d'.run rest = some (d'', more) ∧ came = r.toList ++ more := by
  constructor
  · intro h
    obtain ⟨⟨d', r⟩, hstep, h⟩ := Option.bind_eq_some_iff.1 h
    obtain ⟨⟨d₂, more⟩, hrest, h⟩ := Option.bind_eq_some_iff.1 h
    cases h
    exact ⟨d', r, more, hstep, hrest, rfl⟩
  · rintro ⟨d', r, more, hstep, hrest, rfl⟩
    simp [run, hstep, hrest]

theorem run_append {xs ys : List DeskEvent} {early late : List Request}
    (hxs : d.run xs = some (d', early)) (hys : d'.run ys = some (d'', late)) :
    d.run (xs ++ ys) = some (d'', early ++ late) := by
  induction xs generalizing d early with
  | nil =>
    cases hxs
    exact hys
  | cons e xs ih =>
    obtain ⟨d₁, r, more, hstep, hrest, rfl⟩ := run_cons_eq_some_iff.1 hxs
    rw [List.append_assoc]
    exact run_cons_eq_some_iff.2 ⟨d₁, r, more ++ late, hstep, ih hrest, rfl⟩

theorem exists_run_of_append {xs ys : List DeskEvent} (h : d.run (xs ++ ys) = some (d'', came)) :
    ∃ d' early late, d.run xs = some (d', early) ∧ d'.run ys = some (d'', late) ∧
      came = early ++ late := by
  induction xs generalizing d came with
  | nil => exact ⟨d, [], came, rfl, h, rfl⟩
  | cons e xs ih =>
    obtain ⟨d₁, r, more, hstep, hrest, rfl⟩ := run_cons_eq_some_iff.1 h
    obtain ⟨d', early, late, hxs, hys, rfl⟩ := ih hrest
    exact ⟨d', r.toList ++ early, late, run_cons_eq_some_iff.2 ⟨d₁, r, early, hstep, hxs, rfl⟩, hys,
      (List.append_assoc _ _ _).symm⟩

theorem isOpen_run_eq_false (hrun : d.run events = some (d', came))
    (hclosed : d.keeper.isOpen = false) : d'.keeper.isOpen = false := by
  induction events generalizing d came with
  | nil =>
    cases hrun
    exact hclosed
  | cons e rest ih =>
    obtain ⟨d₁, r, late, hstep, hrest, -⟩ := run_cons_eq_some_iff.1 hrun
    exact ih hrest ((Step.of_step? hstep).isOpen_eq_false hclosed)

/-- The end leaves nothing at a desk, and nothing comes to it any more. -/
theorem Step.eq_of_ended {k : Keeper} (hclosed : k.isOpen = false) {r : Option Request}
    (h : ({ keeper := k } : Desk).Step e d' r) : d' = { keeper := k } ∧ r = none := by
  cases h with
  | hand hr hroom =>
    rw [refusal?_eq_none_iff] at hroom
    simp [hclosed] at hroom
  | refuse | askClosed => exact ⟨rfl, rfl⟩
  | ask q hopen => simp [hclosed] at hopen
  | enter hq hroom => cases hq
  | take hidle hr => cases hr
  | finish now hr => cases hr
  | tick now hidle => rw [Keeper.step_closed hclosed]; exact ⟨rfl, rfl⟩

theorem run_ended {k : Keeper} (hclosed : k.isOpen = false)
    (hrun : ({ keeper := k } : Desk).run events = some (d', came)) :
    d' = { keeper := k } ∧ came = [] := by
  induction events generalizing came with
  | nil =>
    cases hrun
    exact ⟨rfl, rfl⟩
  | cons e rest ih =>
    obtain ⟨d₁, r, late, hstep, hrest, rfl⟩ := run_cons_eq_some_iff.1 hrun
    obtain ⟨rfl, rfl⟩ := Step.eq_of_ended hclosed (.of_step? hstep)
    exact ih hrest

/-! ## Getting done -/

@[simp] theorem keeper_resume (d : Desk) (k : Keeper) : (d.resume k).keeper = k := by
  rw [resume]
  split <;> rfl

/-- A keeper that gets on serves all that waits, in order, or ends before. -/
theorem exists_run_serve (now : Nat) (hopen : d.keeper.isOpen = true) :
    ∃ serving : List DeskEvent, (∀ e ∈ serving, e.isServing = true) ∧
      d.run serving = some (({ d with queue := [] } : Desk).resume
        (d.keeper.run (d.waiting.map (Request.event now))).1, []) := by
  -- The induction is over the queue. Taking the next request leads to the case of a shorter one in
  -- which the keeper is at work, so it has to hold whether it is at work or not.
  obtain ⟨⟨keeper, queue⟩, current, line⟩ := d
  induction queue generalizing keeper current with
  | nil =>
    cases current with
    | none => exact ⟨[], nofun, by simp_all [run, waiting, Keeper.run, resume]⟩
    | some r => exact ⟨[.finish now], by simp [DeskEvent.isServing], rfl⟩
  | cons next queue ih =>
    have htake : ∀ k : Keeper, k.isOpen = true → ∃ serving : List DeskEvent,
        (∀ e ∈ serving, e.isServing = true) ∧
        (⟨⟨k, next :: queue⟩, none, line⟩ : Desk).run serving =
          some ((⟨⟨k, []⟩, none, line⟩ : Desk).resume
            (k.run ((next :: queue).map (Request.event now))).1, []) := by
      intro k hk
      obtain ⟨serving, hserving, hrun⟩ := ih (some next) k hk
      exact ⟨.take :: serving, List.forall_mem_cons.2 ⟨rfl, hserving⟩,
        run_cons_eq_some_iff.2 ⟨_, none, [], rfl, hrun, rfl⟩⟩
    cases current with
    | none => exact htake keeper hopen
    | some r =>
      simp only [waiting, Option.toList_some, List.singleton_append, List.map_cons (a := r),
        Keeper.run_cons keeper]
      cases hk : (keeper.step (r.event now)).1.isOpen with
      | true =>
        obtain ⟨serving, hserving, hrun⟩ := htake _ hk
        refine ⟨.finish now :: serving, List.forall_mem_cons.2 ⟨rfl, hserving⟩,
          run_cons_eq_some_iff.2 ⟨_, none, [], rfl, ?_, rfl⟩⟩
        rw [resume, if_pos hk]
        exact hrun
      | false =>
        rw [Keeper.run_closed hk]
        refine ⟨[.finish now], by simp [DeskEvent.isServing], ?_⟩
        simp [run, step?, resume, hk]

/-! ## The desk of a mailbox -/

/-- The desk at which a mailbox stands while its keeper does not get to run. -/
def ofMailbox (m : Mailbox) : Desk := { m with }

theorem refusal?_ofMailbox (m : Mailbox) :
    (ofMailbox m).refusal? =
      if ¬m.keeper.isOpen then some .closed else if m.HasRoom then none else some .full :=
  rfl

theorem hand_ofMailbox (m : Mailbox) (r : Request) :
    (ofMailbox m).hand r =
      if m.keeper.isOpen ∧ m.HasRoom then (ofMailbox (m.enqueue r), some r)
      else (ofMailbox m, none) := by
  rw [hand, refusal?_ofMailbox]
  cases m.keeper.isOpen with
  | false => rfl
  | true =>
    by_cases hroom : m.HasRoom
    · rw [if_neg (by simp), if_pos hroom, if_pos ⟨rfl, hroom⟩]
      rfl
    · rw [if_neg (by simp), if_neg hroom, if_neg (fun h => hroom h.2)]

theorem step?_save_ofMailbox (m : Mailbox) (s : Snapshot) :
    (ofMailbox m).step? (.save s) = some (match m.save s with
      | .ok m' => (ofMailbox m', some (.save s))
      | .error _ => (ofMailbox m, none)) := by
  rw [step?, hand_ofMailbox, Mailbox.save]
  cases m.keeper.isOpen with
  | false => simp
  | true => by_cases hroom : m.HasRoom <;> simp [hroom]

theorem step?_shutdown_ofMailbox (m : Mailbox) :
    (ofMailbox m).step? .shutdown = some (ofMailbox m.shutdown,
      if m.keeper.isOpen ∧ m.HasRoom then some .shutdown else none) := by
  rw [step?, hand_ofMailbox, Mailbox.shutdown]
  split <;> rfl

theorem exists_run_serve_ofMailbox (m : Mailbox) (now : Nat) (hopen : m.keeper.isOpen = true) :
    ∃ serving : List DeskEvent, (∀ e ∈ serving, e.isServing = true) ∧
      (ofMailbox m).run serving = some (ofMailbox (m.serve now).1, []) := by
  obtain ⟨serving, hserving, hrun⟩ := exists_run_serve (d := ofMailbox m) now hopen
  refine ⟨serving, hserving, hrun.trans ?_⟩
  rw [resume]
  split <;> rfl

/-- A question that stands in line alone is answered when the keeper has nothing else to do. -/
theorem run_answer (k : Keeper) (now : Nat) (q : Question) :
    ({ keeper := k, line := [q] } : Desk).run [.enter 0, .take, .finish now] =
      some (ofMailbox { keeper := (k.step (q.request.event now)).1 }, [q.request]) := by
  have hlast : (⟨{ keeper := k }, some q.request, []⟩ : Desk).resume
        (k.step (q.request.event now)).1 =
      ofMailbox { keeper := (k.step (q.request.event now)).1 } := by
    rw [resume]
    split <;> rfl
  rw [← hlast]
  rfl

/-- A question at a mailbox waits in line until the keeper has got done with the others. -/
theorem exists_run_ask_ofMailbox (m : Mailbox) (now : Nat) (q : Question) :
    ∃ (rest : List DeskEvent) (came : List Request),
      (∀ e ∈ rest, e.isServing = true ∨ e = .enter 0) ∧
      (ofMailbox m).run (.ask q :: rest) = some (ofMailbox (m.ask now q).1, came) := by
  rw [Mailbox.ask]
  cases hopen : m.keeper.isOpen with
  | false => exact ⟨[], [], nofun, by simp [run, step?, ofMailbox, hopen]⟩
  | true =>
    have hask : (ofMailbox m).step? (.ask q) = some ({ m with line := [q] }, none) := by
      simp [step?, ofMailbox, hopen]
    obtain ⟨serving, hserving, hrun⟩ :=
      exists_run_serve (d := ({ m with line := [q] } : Desk)) now hopen
    have hserve : ({ m with line := [q] } : Desk).run serving =
        some ((⟨{ m with queue := [] }, none, [q]⟩ : Desk).resume (m.serve now).1.keeper, []) :=
      hrun
    simp only [not_true_eq_false, if_false]
    split
    · next hk =>
      rw [resume, if_pos hk] at hserve
      refine ⟨serving ++ [.enter 0, .take, .finish now], [q.request], ?_,
        run_cons_eq_some_iff.2 ⟨_, none, [q.request], hask,
          run_append hserve (run_answer _ now q), rfl⟩⟩
      intro e he
      rcases List.mem_append.1 he with he | he
      · exact .inl (hserving e he)
      · fin_cases he
        · exact .inr rfl
        · exact .inl rfl
        · exact .inl rfl
    · next hk =>
      rw [resume, if_neg hk] at hserve
      exact ⟨serving, [], fun e he => .inl (hserving e he),
        run_cons_eq_some_iff.2 ⟨_, none, [], hask, hserve, rfl⟩⟩

end Desk

end PlayerSlots
