import Mathlib
import PlayerSlots.Snapshot.Keeper

/-! # Writing behind

A keeper is a register that is written late. The snapshots it has been given fall into those that
its store covers, of which the last is stored, and those after them, of which the last waits; the
ones between are never written.

* `Keeper.saves`, `Keeper.writes`: the snapshots that came, and those that were written.
* `Keeper.Behind`: the store covers the first of the snapshots that came, up to some number.
* `Keeper.Behind.step`, `Keeper.Behind.run`: this number never goes down.
* `keeper_writes_behind`: what users of a keeper can rely on, at every point of every run.
-/

namespace PlayerSlots
set_option autoImplicit false

namespace Keeper

/-- A keeper over a store that holds something already, or nothing. -/
def start (debounce : Nat) (seed : Option (List UInt8)) : Keeper := { debounce, stored := seed }

/-- The snapshots that came before the end. -/
def saves (events : List KeeperEvent) : List Snapshot :=
  (events.takeWhile (· ≠ .stop)).filterMap fun
    | .save s _ => some s
    | _ => none

def writes (effects : List KeeperEffect) : List Snapshot :=
  effects.filterMap fun
    | .wrote s => some s
    | _ => none

/-- What a store holds when some snapshots have gone into it, one over the other. -/
def contents (seed : Option (List UInt8)) (snapshots : List Snapshot) : Option (List UInt8) :=
  (snapshots.getLast?.map (Snapshot.bytes .compact)).or seed

theorem contents_concat (seed : Option (List UInt8)) (snapshots : List Snapshot) (s : Snapshot) :
    contents seed (snapshots ++ [s]) = some (s.bytes .compact) := by
  simp [contents]

@[simp] theorem writes_append (xs ys : List KeeperEffect) :
    writes (xs ++ ys) = writes xs ++ writes ys :=
  List.filterMap_append

theorem saves_cons {e : KeeperEvent} (he : e ≠ .stop) (rest : List KeeperEvent) :
    saves (e :: rest) = saves [e] ++ saves rest := by
  rw [saves, saves, saves, ← List.filterMap_append]
  congr 1
  simp [he]

theorem saves_append {done : List KeeperEvent} (h : .stop ∉ done) (rest : List KeeperEvent) :
    saves (done ++ rest) = saves done ++ saves rest := by
  induction done with
  | nil => rfl
  | cons e done ih =>
    rw [List.mem_cons, not_or] at h
    have he : e ≠ .stop := Ne.symm h.1
    rw [List.cons_append, saves_cons he, saves_cons he done, ih h.2, List.append_assoc]

theorem saves_append_of_mem {done : List KeeperEvent} (h : .stop ∈ done)
    (rest : List KeeperEvent) : saves (done ++ rest) = saves done := by
  induction done with
  | nil => cases h
  | cons e done ih =>
    by_cases he : e = .stop
    · subst he
      rfl
    · have hrest : .stop ∈ done := (List.mem_cons.1 h).resolve_left (Ne.symm he)
      rw [List.cons_append, saves_cons he, saves_cons he done, ih hrest]

theorem saves_prefix (done rest : List KeeperEvent) : saves done <+: saves (done ++ rest) := by
  by_cases h : .stop ∈ done
  · rw [saves_append_of_mem h]
  · rw [saves_append h]
    exact List.prefix_append _ _

/-! ## One event -/

section Step

variable {k : Keeper}

theorem step_closed (h : k.isOpen = false) (e : KeeperEvent) : k.step e = (k, []) := by
  simp [step, h]

theorem step_save (h : k.isOpen = true) (s : Snapshot) (now : Nat) :
    k.step (.save s now) = if k.debounce = 0 then { k with pending := some s, savedAt := now }.write
      else ({ k with pending := some s, savedAt := now }, []) := by
  simp [step, h]

theorem step_load (h : k.isOpen = true) : k.step .load = (k, [.loaded k.load?]) := by
  simp [step, h]

theorem step_flush (h : k.isOpen = true) :
    k.step .flush = (k.write.1, k.write.2 ++ [.flushed]) := by
  simp [step, h]

theorem step_tick (h : k.isOpen = true) (now : Nat) :
    k.step (.tick now) = if k.isDue now then k.write else (k, []) := by
  simp [step, h]

theorem step_stop (h : k.isOpen = true) :
    k.step .stop = ({ k.write.1 with isOpen := false }, k.write.2) := by
  simp [step, h]

end Step

@[simp] theorem isOpen_write (k : Keeper) : k.write.1.isOpen = k.isOpen := by
  unfold write
  split <;> rfl

@[simp] theorem debounce_write (k : Keeper) : k.write.1.debounce = k.debounce := by
  unfold write
  split <;> rfl

@[simp] theorem pending_write (k : Keeper) : k.write.1.pending = none := by
  unfold write
  split
  · rfl
  · assumption

/-- Only the end closes a keeper. -/
theorem isOpen_step {k : Keeper} (h : k.isOpen = true) (e : KeeperEvent) :
    (k.step e).1.isOpen = true ↔ e ≠ .stop := by
  cases e with
  | save s now => rw [step_save h]; split <;> simp [h]
  | load => simp [step_load h, h]
  | flush => simp [step_flush h, h]
  | tick now => rw [step_tick h]; split <;> simp [h]
  | stop => simp [step_stop h]

theorem isOpen_step_stop (k : Keeper) : (k.step .stop).1.isOpen = false := by
  cases h : k.isOpen with
  | false => rw [step_closed h, h]
  | true => rw [step_stop h]

theorem debounce_step (k : Keeper) (e : KeeperEvent) : (k.step e).1.debounce = k.debounce := by
  cases h : k.isOpen with
  | false => rw [step_closed h]
  | true =>
    cases e with
    | save s now => rw [step_save h]; split <;> simp
    | load => rw [step_load h]
    | flush => simp [step_flush h]
    | tick now => rw [step_tick h]; split <;> simp
    | stop => simp [step_stop h]

/-! ## Many events -/

theorem run_cons (k : Keeper) (e : KeeperEvent) (rest : List KeeperEvent) :
    k.run (e :: rest) =
      (((k.step e).1.run rest).1, (k.step e).2 ++ ((k.step e).1.run rest).2) :=
  rfl

theorem run_closed {k : Keeper} (h : k.isOpen = false) (events : List KeeperEvent) :
    k.run events = (k, []) := by
  induction events with
  | nil => rfl
  | cons e rest ih => rw [run_cons, step_closed h, ih]; rfl

theorem run_append (k : Keeper) (xs ys : List KeeperEvent) :
    k.run (xs ++ ys) = (((k.run xs).1.run ys).1, (k.run xs).2 ++ ((k.run xs).1.run ys).2) := by
  induction xs generalizing k with
  | nil => rfl
  | cons e xs ih => rw [List.cons_append, run_cons, run_cons, ih, List.append_assoc]

theorem isOpen_run {k : Keeper} (h : k.isOpen = true) (events : List KeeperEvent) :
    (k.run events).1.isOpen = true ↔ .stop ∉ events := by
  induction events generalizing k with
  | nil => simpa [run] using h
  | cons e rest ih =>
    rw [run_cons, List.mem_cons, not_or]
    by_cases he : e = .stop
    · subst he
      rw [run_closed (isOpen_step_stop k), isOpen_step_stop]
      simp
    · rw [ih ((isOpen_step h e).2 he)]
      simp [Ne.symm he]

/-- A request to load is answered with what the store holds when it comes. -/
theorem run_load {k : Keeper} (h : k.isOpen = true) {done : List KeeperEvent}
    (hstop : .stop ∉ done) (rest : List KeeperEvent) :
    (k.run (done ++ .load :: rest)).2 =
      (k.run done).2 ++ .loaded (k.run done).1.load? :: ((k.run done).1.run rest).2 := by
  rw [run_append, run_cons, step_load ((isOpen_run h done).2 hstop)]
  rfl

theorem debounce_run (k : Keeper) (events : List KeeperEvent) :
    (k.run events).1.debounce = k.debounce := by
  induction events generalizing k with
  | nil => rfl
  | cons e rest ih => rw [run_cons, ih, debounce_step]

/-! ## Nothing waits -/

/-- Without a wait, and after the end, nothing waits. -/
def Prompt (k : Keeper) : Prop := k.debounce = 0 ∨ k.isOpen = false → k.pending = none

theorem Prompt.pending_step {k : Keeper} (h : k.Prompt) {e : KeeperEvent}
    (he : e = .flush ∨ e = .stop) : (k.step e).1.pending = none := by
  cases hopen : k.isOpen with
  | false =>
    rw [step_closed hopen]
    exact h (.inr hopen)
  | true =>
    rcases he with rfl | rfl
    · simp [step_flush hopen]
    · simp [step_stop hopen]

theorem Prompt.step {k : Keeper} (h : k.Prompt) (e : KeeperEvent) : (k.step e).1.Prompt := by
  intro hprompt
  cases hopen : k.isOpen with
  | false =>
    rw [step_closed hopen]
    exact h (.inr hopen)
  | true =>
    by_cases hstop : e = .stop
    · exact h.pending_step (.inr hstop)
    · have hzero : k.debounce = 0 := by
        rw [debounce_step, ← Bool.not_eq_true, isOpen_step hopen] at hprompt
        exact hprompt.resolve_right (not_not_intro hstop)
      have hnone := h (.inl hzero)
      cases e with
      | save s now => simp [step_save hopen, hzero]
      | load => simp [step_load hopen, hnone]
      | flush => simp [step_flush hopen]
      | tick now => rw [step_tick hopen]; split <;> simp [hnone]
      | stop => exact absurd rfl hstop

theorem Prompt.run {k : Keeper} (h : k.Prompt) (events : List KeeperEvent) :
    (k.run events).1.Prompt := by
  induction events generalizing k with
  | nil => exact h
  | cons e rest ih => exact ih (h.step e)

/-- Nothing waits after a request to write, and nothing after the end. -/
theorem Prompt.pending_run {k : Keeper} (h : k.Prompt) {events : List KeeperEvent}
    {e : KeeperEvent} (hlast : events.getLast? = some e) (he : e = .flush ∨ e = .stop) :
    (k.run events).1.pending = none := by
  obtain ⟨done, rfl⟩ := List.getLast?_eq_some_iff.1 hlast
  rw [run_append, run_cons]
  exact (h.run done).pending_step he

/-! ## What the store covers -/

/-- Of the snapshots that came, the store covers the first `n`: the last of them is stored, the last
of the others waits, and those that were written are among the first `n`. -/
structure Behind (seed : Option (List UInt8)) (came written : List Snapshot) (n : Nat)
    (k : Keeper) : Prop where
  le : n ≤ came.length
  sublist : written.Sublist (came.take n)
  last : written.getLast? = (came.take n).getLast?
  stored : k.stored = contents seed written
  pending : k.pending = (came.drop n).getLast?

namespace Behind

variable {seed : Option (List UInt8)} {came written : List Snapshot} {n : Nat} {k : Keeper}

theorem start (debounce : Nat) (seed : Option (List UInt8)) :
    Behind seed [] [] 0 (.start debounce seed) where
  le := Nat.le_refl 0
  sublist := List.Sublist.refl []
  last := rfl
  stored := rfl
  pending := rfl

/-- A store that covers all has nothing to wait for. -/
theorem pending_eq_none_iff (h : Behind seed came written n k) :
    k.pending = none ↔ n = came.length := by
  rw [h.pending, List.getLast?_eq_none_iff, List.drop_eq_nil_iff]
  exact ⟨h.le.antisymm, fun hn => hn.ge⟩

theorem contents_take (h : Behind seed came written n k) :
    k.stored = contents seed (came.take n) := by
  rw [h.stored, contents, contents, h.last]

theorem write (h : Behind seed came written n k) :
    Behind seed came (written ++ writes k.write.2) came.length k.write.1 := by
  rw [Keeper.write]
  cases hpending : k.pending with
  | none =>
    rw [← h.pending_eq_none_iff.1 hpending]
    have hnone : writes [] = [] := rfl
    simp only [hnone, List.append_nil]
    exact h
  | some s =>
    have hlast : (came.drop n).getLast? = some s := h.pending.symm.trans hpending
    have hsplit : came.take n ++ came.drop n = came := List.take_append_drop n came
    have hs : came.getLast? = some s := by
      rw [← hsplit, List.getLast?_append, hlast]
      rfl
    have hwritten : writes [KeeperEffect.wrote s] = [s] := rfl
    simp only [hwritten]
    refine ⟨Nat.le_refl _, ?_, ?_, ?_, ?_⟩
    · rw [List.take_length, ← hsplit]
      exact h.sublist.append (List.singleton_sublist.2 (List.mem_of_getLast? hlast))
    · rw [List.take_length, hs, List.getLast?_concat]
    · exact (contents_concat seed written s).symm
    · rw [List.drop_length]
      rfl

/-- A snapshot that comes has to wait. -/
theorem receive (h : Behind seed came written n k) (s : Snapshot) (now : Nat) :
    Behind seed (came ++ [s]) written n { k with pending := some s, savedAt := now } where
  le := h.le.trans (by simp)
  sublist := by rw [List.take_append_of_le_length h.le]; exact h.sublist
  last := by rw [List.take_append_of_le_length h.le]; exact h.last
  stored := h.stored
  pending := by rw [List.drop_append_of_le_length h.le, List.getLast?_concat]

theorem close (h : Behind seed came written n k) :
    Behind seed came written n { k with isOpen := false } :=
  ⟨h.le, h.sublist, h.last, h.stored, h.pending⟩

theorem step (h : Behind seed came written n k) (hopen : k.isOpen = true) (e : KeeperEvent) :
    ∃ m, n ≤ m ∧
      Behind seed (came ++ saves [e]) (written ++ writes (k.step e).2) m (k.step e).1 := by
  have hsame : Behind seed (came ++ []) (written ++ []) n k := by
    rw [List.append_nil, List.append_nil]
    exact h
  have hwrite : Behind seed (came ++ []) (written ++ writes k.write.2) came.length k.write.1 := by
    rw [List.append_nil]
    exact h.write
  cases e with
  | save s now =>
    have hreceived : Behind seed (came ++ [s]) (written ++ []) n
        { k with pending := some s, savedAt := now } := by
      rw [List.append_nil]
      exact h.receive s now
    rw [step_save hopen]
    split
    · exact ⟨_, (h.receive s now).le, (h.receive s now).write⟩
    · exact ⟨n, Nat.le_refl n, hreceived⟩
  | load =>
    rw [step_load hopen]
    exact ⟨n, Nat.le_refl n, hsame⟩
  | flush =>
    have hwrites : writes (k.write.2 ++ [KeeperEffect.flushed]) = writes k.write.2 := by
      rw [writes_append]
      exact List.append_nil _
    rw [step_flush hopen, hwrites]
    exact ⟨came.length, h.le, hwrite⟩
  | tick now =>
    rw [step_tick hopen]
    split
    · exact ⟨came.length, h.le, hwrite⟩
    · exact ⟨n, Nat.le_refl n, hsame⟩
  | stop =>
    rw [step_stop hopen]
    exact ⟨came.length, h.le, hwrite.close⟩

/-- The induction is over the events. After the end neither the snapshots that count nor the keeper
change any more. -/
theorem run (h : Behind seed came written n k) (hopen : k.isOpen = true)
    (events : List KeeperEvent) :
    ∃ m, n ≤ m ∧
      Behind seed (came ++ saves events) (written ++ writes (k.run events).2) m
        (k.run events).1 := by
  induction events generalizing came written n k with
  | nil =>
    refine ⟨n, Nat.le_refl n, ?_⟩
    have hcame : came ++ saves [] = came := List.append_nil _
    have hwritten : written ++ writes (k.run []).2 = written := List.append_nil _
    rw [hcame, hwritten]
    exact h
  | cons e rest ih =>
    obtain ⟨m, hnm, hstep⟩ := h.step hopen e
    by_cases hstop : e = .stop
    · subst hstop
      rw [run_cons, run_closed (isOpen_step_stop k), List.append_nil]
      exact ⟨m, hnm, hstep⟩
    · obtain ⟨m', hmm', hrun⟩ := ih hstep ((isOpen_step hopen e).2 hstop)
      rw [run_cons, saves_cons hstop, writes_append, ← List.append_assoc, ← List.append_assoc]
      exact ⟨m', hnm.trans hmm', hrun⟩

/-- More events only let the store cover more. -/
theorem run_append (h : Behind seed came written n k) (hopen : k.isOpen = true)
    (done rest : List KeeperEvent) :
    ∃ i j, i ≤ j ∧
      Behind seed (came ++ saves done) (written ++ writes (k.run done).2) i (k.run done).1 ∧
      Behind seed (came ++ saves (done ++ rest)) (written ++ writes (k.run (done ++ rest)).2) j
        (k.run (done ++ rest)).1 := by
  obtain ⟨i, -, hdone⟩ := h.run hopen done
  by_cases hstop : .stop ∈ done
  · have hclosed : (k.run done).1.isOpen = false := by
      rw [← Bool.not_eq_true, isOpen_run hopen]
      exact not_not_intro hstop
    rw [Keeper.run_append, run_closed hclosed, saves_append_of_mem hstop, List.append_nil]
    exact ⟨i, i, Nat.le_refl i, hdone, hdone⟩
  · obtain ⟨j, hij, hlater⟩ := hdone.run ((isOpen_run hopen done).2 hstop) rest
    rw [Keeper.run_append, saves_append hstop, writes_append, ← List.append_assoc,
      ← List.append_assoc]
    exact ⟨i, j, hij, hdone, hlater⟩

end Behind

end Keeper

open Keeper (start saves writes contents)

/-- After any events, however long a snapshot may wait and whatever the store held before:

* the newest snapshot waits, or nothing waits and the store holds that snapshot, or still what it
  held before if none came;
* the store holds what was written last, the snapshots that were written came in this order, and
  what is stored is never older than what was stored before;
* each request to load is answered with what the store holds at that moment;
* after a request to write, after the end, and without a wait, nothing waits. -/
theorem keeper_writes_behind (debounce : Nat) (seed : Option (List UInt8))
    (events : List KeeperEvent) :
    let k := ((start debounce seed).run events).1
    let effects := ((start debounce seed).run events).2
    ((k.pending = none ∧ k.stored = contents seed (saves events)) ∨
      (saves events ≠ [] ∧ k.pending = (saves events).getLast?)) ∧
    (k.stored = contents seed (writes effects) ∧ (writes effects).Sublist (saves events)) ∧
    (∀ done, done <+: events → ∃ i j, i ≤ j ∧ j ≤ (saves events).length ∧
      ((start debounce seed).run done).1.stored = contents seed ((saves events).take i) ∧
      k.stored = contents seed ((saves events).take j)) ∧
    (∀ done rest, events = done ++ .load :: rest → .stop ∉ done →
      let before := (start debounce seed).run done
      effects = before.2 ++ .loaded (before.1.stored.bind Snapshot.readBytes?)
        :: (before.1.run rest).2) ∧
    (∀ e, events.getLast? = some e → e = .flush ∨ e = .stop ∨ debounce = 0 → k.pending = none) := by
  intro k effects
  have hopen : (start debounce seed).isOpen = true := rfl
  have hprompt : (start debounce seed).Prompt := fun _ => rfl
  obtain ⟨n, -, hbehind⟩ := (Keeper.Behind.start debounce seed).run hopen events
  rw [List.nil_append, List.nil_append] at hbehind
  refine ⟨?_, ⟨hbehind.stored, hbehind.sublist.trans (List.take_sublist n _)⟩, ?_, ?_, ?_⟩
  · rcases hbehind.le.eq_or_lt with hall | hless
    · have hstored := hbehind.contents_take
      rw [hall, List.take_length] at hstored
      exact .inl ⟨hbehind.pending_eq_none_iff.2 hall, hstored⟩
    · right
      refine ⟨List.ne_nil_of_length_pos (Nat.zero_lt_of_lt hless), ?_⟩
      rw [hbehind.pending, List.getLast?_drop, if_neg (by omega)]
  · rintro done ⟨rest, rfl⟩
    obtain ⟨i, j, hij, hdone, hlater⟩ :=
      (Keeper.Behind.start debounce seed).run_append hopen done rest
    rw [List.nil_append] at hdone hlater
    refine ⟨i, j, hij, hlater.le, ?_, hlater.contents_take⟩
    obtain ⟨more, hmore⟩ := Keeper.saves_prefix done rest
    rw [hdone.contents_take, ← hmore, List.take_append_of_le_length hdone.le]
  · rintro done rest rfl hstop before
    exact Keeper.run_load hopen hstop rest
  · intro e hlast he
    rcases or_assoc.2 he with hends | hzero
    · exact hprompt.pending_run hlast hends
    · exact hprompt.run events (.inl ((Keeper.debounce_run _ events).trans hzero))

end PlayerSlots
