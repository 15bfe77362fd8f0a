import PlayerSlots.Snapshot

/-! # Keeping snapshots

A `Keeper` writes snapshots to a store that holds one. It does not write each at once: a snapshot
waits until no newer one has come for a while, and a newer one replaces it. Only what is stored can
be loaded, never what waits.

`Keeper.step` is one event, with what follows from it; `Keeper.run` is a list of events.
-/

namespace PlayerSlots
set_option autoImplicit false

/-- The store, and what waits to be written to it. -/
structure Keeper where
  /-- How long a snapshot waits for a newer one, in milliseconds; without a wait it is written at
  once. -/
  debounce : Nat
  /-- What the store holds, which need not be a snapshot. -/
  stored : Option (List UInt8)
  pending : Option Snapshot := none
  /-- When the newest snapshot came, in milliseconds. -/
  savedAt : Nat := 0
  /-- Whether events still count. -/
  isOpen : Bool := true
deriving DecidableEq, Repr

inductive KeeperEvent where
  /-- A snapshot is to be kept. -/
  | save (s : Snapshot) (now : Nat)
  | load
  /-- What waits is to be written. -/
  | flush
  /-- Time has passed. -/
  | tick (now : Nat)
  | stop
deriving DecidableEq, Repr

inductive KeeperEffect where
  | wrote (s : Snapshot)
  | loaded (s : Option Snapshot)
  | flushed
deriving DecidableEq, Repr

namespace Keeper

/-- Writes what waits. -/
def write (k : Keeper) : Keeper × List KeeperEffect :=
  match k.pending with
  | some s => ({ k with stored := some (s.bytes .compact), pending := none }, [.wrote s])
  | none => (k, [])

/-- The snapshot that is stored, if it is one. -/
def load? (k : Keeper) : Option Snapshot := k.stored.bind Snapshot.readBytes?

/-- Whether what waits has waited long enough. -/
def isDue (k : Keeper) (now : Nat) : Bool := 0 < k.debounce ∧ k.debounce ≤ now - k.savedAt

/-- One event. After the end nothing happens. -/
def step (k : Keeper) (e : KeeperEvent) : Keeper × List KeeperEffect :=
  if k.isOpen then
    match e with
    | .save s now =>
      let k := { k with pending := some s, savedAt := now }
      if k.debounce = 0 then k.write else (k, [])
    | .load => (k, [.loaded k.load?])
    | .flush =>
      let (k, effects) := k.write
      (k, effects ++ [.flushed])
    | .tick now => if k.isDue now then k.write else (k, [])
    | .stop =>
      let (k, effects) := k.write
      ({ k with isOpen := false }, effects)
  else (k, [])

def run (k : Keeper) : List KeeperEvent → Keeper × List KeeperEffect
  | [] => (k, [])
  | e :: rest =>
    let (k', effects) := k.step e
    let (k'', more) := k'.run rest
    (k'', effects ++ more)

end Keeper

end PlayerSlots
