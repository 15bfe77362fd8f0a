import PlayerSlots.Session.Basic

/-! # What a session has done

The parts of a list of effects that each of its receivers sees.
-/

namespace PlayerSlots.Effect
set_option autoImplicit false

def askedNames (effects : List Effect) : List String :=
  effects.filterMap fun
    | asked name => some name
    | _ => none

def appliedLists (effects : List Effect) : List (List Slot) :=
  effects.filterMap fun
    | applied slots => some slots
    | _ => none

def savedLists (effects : List Effect) : List (List Slot) :=
  effects.filterMap fun
    | saved slots => some slots
    | _ => none

/-- The slots that the input is routed by: those applied last, and none before the first. -/
def routed (effects : List Effect) : List Slot := (appliedLists effects).getLast?.getD []

end PlayerSlots.Effect
