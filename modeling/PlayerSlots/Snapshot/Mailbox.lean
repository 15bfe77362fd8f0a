import PlayerSlots.Snapshot.Keeper

/-! # Requests to a keeper

A `Mailbox` is a keeper as its users see it: requests wait in a queue with a limit, and the keeper
serves them in order when it gets to run.

* `Mailbox.save`, `Mailbox.shutdown`: requests that nobody waits for. Without room, a snapshot is
  refused and a shutdown is lost.
* `Mailbox.ask`: a request whose answer is waited for, if need be first for room.
-/

namespace PlayerSlots
set_option autoImplicit false

/-- A request to a keeper. -/
inductive Request where
  | save (s : Snapshot)
  | load
  | flush
  | shutdown
deriving DecidableEq, Repr

def Request.event (now : Nat) : Request → KeeperEvent
  | save s => .save s now
  | load => .load
  | flush => .flush
  | shutdown => .stop

/-- What can be asked of a keeper. -/
inductive Question where
  | load
  | flush
deriving DecidableEq, Repr

namespace Question

def request : Question → Request
  | load => .load
  | flush => .flush

def name : Question → String
  | load => "load"
  | flush => "flush"

end Question

inductive RequestError where
  /-- There is no room for the snapshot. -/
  | full
  /-- The snapshot comes after the end. -/
  | closed
  /-- The question comes after the end, or there is no room for it before. -/
  | unsent (q : Question)
  /-- The end has come before the answer. -/
  | unanswered (q : Question)
deriving DecidableEq, Repr

def RequestError.message : RequestError → String
  | full => "Failed to queue slot snapshot: no available capacity"
  | closed => "Failed to queue slot snapshot: channel closed"
  | unsent q => "Failed to send " ++ q.name ++ " command: actor shut down"
  | unanswered q => "Failed to receive " ++ q.name ++ " response"

/-- A keeper and the requests that wait for it. -/
structure Mailbox where
  keeper : Keeper
  queue : List Request := []
deriving DecidableEq, Repr

namespace Mailbox

/-- How many requests can wait. -/
def capacity : Nat := 100

/-- Whether there is room for a request. -/
def HasRoom (m : Mailbox) : Prop := m.queue.length < capacity

instance (m : Mailbox) : Decidable m.HasRoom := inferInstanceAs (Decidable (_ < _))

def enqueue (m : Mailbox) (r : Request) : Mailbox := { m with queue := m.queue ++ [r] }

/-- Hands in a snapshot. -/
def save (m : Mailbox) (s : Snapshot) : Except RequestError Mailbox :=
  if ¬m.keeper.isOpen then .error .closed
  else if m.HasRoom then .ok (m.enqueue (.save s))
  else .error .full

def shutdown (m : Mailbox) : Mailbox :=
  if m.keeper.isOpen ∧ m.HasRoom then m.enqueue .shutdown else m

/-- Lets the keeper serve what waits. What is left after the end is dropped. -/
def serve (m : Mailbox) (now : Nat) : Mailbox × List KeeperEffect :=
  let (keeper, effects) := m.keeper.run (m.queue.map (Request.event now))
  ({ keeper }, effects)

/-- Whether a keeper has paused to write. -/
def hasWritten (effects : List KeeperEffect) : Bool :=
  effects.any fun
    | .wrote _ => true
    | _ => false

/-- Asks a question and waits for the answer. A question that has to wait for room is handed in when
the keeper pauses to write, or when it has served all the others. -/
def ask (m : Mailbox) (now : Nat) (q : Question) :
    Mailbox × List KeeperEffect × Except RequestError (Option KeeperEffect) :=
  if ¬m.keeper.isOpen then (m, [], .error (.unsent q))
  else
    let (m', effects) := m.serve now
    if m'.keeper.isOpen then
      let (keeper, more) := m'.keeper.step (q.request.event now)
      ({ keeper }, effects ++ more, .ok more.getLast?)
    else
      (m', effects,
        .error (if m.HasRoom ∨ hasWritten effects then .unanswered q else .unsent q))

/-- Lets the keeper serve what waits, and then ends it for want of users. -/
def close (m : Mailbox) (now : Nat) : Mailbox × List KeeperEffect :=
  let (m, effects) := m.serve now
  let (keeper, more) := m.keeper.step .stop
  ({ keeper }, effects ++ more)

end Mailbox

end PlayerSlots
