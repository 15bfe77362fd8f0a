import PlayerSlots.Snapshot.Mailbox

/-! # A keeper at work

A `Desk` is a mailbox whose users hand in requests while its keeper is at work. The keeper takes one
request at a time and is done with it some time later. A question for which the queue has no room
stands in line. Room that gets free belongs to those in line, the first one first, so that a request
that nobody waits for may find none although the queue is not full.

* `Desk.step?`: one event, by whomever, with the request that it brings into the queue, if any;
  events can come in any order in which they are possible.
* `Desk.run`: several events in turn, with the requests that they bring into the queue.
* `Desk.IsDrained`: the keeper has nothing to do.
-/

namespace PlayerSlots
set_option autoImplicit false

/-- An event at a keeper that is at work, by its users or by the keeper. -/
inductive DeskEvent where
  /-- A snapshot is handed in. -/
  | save (s : Snapshot)
  | shutdown
  /-- Somebody gets in line with a question. -/
  | ask (q : Question)
  /-- The question at some place in the line gets into the queue. -/
  | enter (place : Nat)
  /-- The keeper takes the oldest request. -/
  | take
  /-- The keeper is done with the request that it took last. -/
  | finish (now : Nat)
  /-- Time has passed. -/
  | tick (now : Nat)
deriving DecidableEq, Repr

/-- Whether the keeper gets on with its requests. -/
def DeskEvent.isServing : DeskEvent → Bool
  | take | finish _ => true
  | _ => false

structure Desk extends Mailbox where
  /-- The request that the keeper is at work on. -/
  current : Option Request := none
  /-- The questions that have not got into the queue, in the order in which they were asked. -/
  line : List Question := []
deriving DecidableEq, Repr

namespace Desk

/-- The desk of a keeper over a store that holds something already, or nothing. -/
def start (debounce : Nat) (seed : Option (List UInt8)) : Desk :=
  { keeper := { debounce, stored := seed } }

/-- Why a snapshot that is handed in now is refused, if it is. -/
def refusal? (d : Desk) : Option RequestError :=
  if ¬d.keeper.isOpen then some .closed
  else if d.queue.length + d.line.length < Mailbox.capacity then none
  else some .full

/-- Hands in a request that nobody waits for. -/
def hand (d : Desk) (r : Request) : Desk × Option Request :=
  match d.refusal? with
  | none => ({ d with queue := d.queue ++ [r] }, some r)
  | some _ => (d, none)

/-- What is left when the keeper is done with a request. The end drops what waits. -/
def resume (d : Desk) (keeper : Keeper) : Desk :=
  if keeper.isOpen then { d with keeper, current := none } else { keeper }

def step? (d : Desk) : DeskEvent → Option (Desk × Option Request)
  | .save s => some (d.hand (.save s))
  | .shutdown => some (d.hand .shutdown)
  | .ask q => some (if d.keeper.isOpen then { d with line := d.line ++ [q] } else d, none)
  | .enter place =>
    match d.line[place]? with
    | some q =>
      if d.queue.length + place < Mailbox.capacity then
        some ({ d with queue := d.queue ++ [q.request], line := d.line.eraseIdx place },
          some q.request)
      else none
    | none => none
  | .take =>
    match d.current, d.queue with
    | none, r :: rest => some ({ d with current := some r, queue := rest }, none)
    | _, _ => none
  | .finish now =>
    match d.current with
    | some r => some (d.resume (d.keeper.step (r.event now)).1, none)
    | none => none
  | .tick now =>
    if d.current = none then some ({ d with keeper := (d.keeper.step (.tick now)).1 }, none)
    else none

/-- Several events in turn, if they are possible. -/
def run (d : Desk) : List DeskEvent → Option (Desk × List Request)
  | [] => some (d, [])
  | e :: rest => do
    let (d', r) ← d.step? e
    let (d'', more) ← d'.run rest
    some (d'', r.toList ++ more)

/-- Whether the keeper has nothing to do. -/
def IsDrained (d : Desk) : Prop := d.current = none ∧ d.queue = []

instance (d : Desk) : Decidable d.IsDrained := inferInstanceAs (Decidable (_ ∧ _))

end Desk

end PlayerSlots
