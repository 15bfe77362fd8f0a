import PlayerSlots.Settings.Loading

/-! # Reloading settings

When a settings file has changed, only a change of the settings of automatic assignment counts. A
file that cannot be used changes nothing.

* `AutoAssign.reload`: one reload, compared with the settings that were reported last.
* `AutoAssign.reports`: what is reported over several reloads.
-/

namespace PlayerSlots.AutoAssign
set_option autoImplicit false

/-- What there is to report after a reload, if anything. -/
def change? (applied : AutoAssign) (loaded : Except SettingsError Settings) : Option AutoAssign :=
  match loaded with
  | .error _ => none
  | .ok s => if s.autoAssign = applied then none else some s.autoAssign

/-- The settings reported last after a reload. -/
def reload (applied : AutoAssign) (loaded : Except SettingsError Settings) : AutoAssign :=
  (applied.change? loaded).getD applied

/-- What is reported over several reloads, in order. -/
def reports (applied : AutoAssign) : List (Except SettingsError Settings) → List AutoAssign
  | [] => []
  | loaded :: rest => (applied.change? loaded).toList ++ (applied.reload loaded).reports rest

end PlayerSlots.AutoAssign
