import PlayerSlots.Main
import PlayerSlots.Settings.Watch
import PlayerSlots.Snapshot.Mailbox
import PlayerSlots.Proofs.Slot.Seating
import PlayerSlots.Proofs.Slot.Placement
import PlayerSlots.Proofs.Slot.Pass
import PlayerSlots.Proofs.Session.Run
import PlayerSlots.Proofs.Session.Soundness
import PlayerSlots.Proofs.Session.KnownHardware
import PlayerSlots.Proofs.Session.PlayerOrder
import PlayerSlots.Proofs.Session.Seats
import PlayerSlots.Proofs.Slot.Newcomers
import PlayerSlots.Proofs.Slot.FreePositions
import PlayerSlots.Proofs.Slot.Arrival
import PlayerSlots.Proofs.Slot.Names
import PlayerSlots.Proofs.Slot.Repair
import PlayerSlots.Proofs.Slot.AnyInput
import PlayerSlots.Proofs.Session.Restart
import PlayerSlots.Proofs.Session.Saving
import PlayerSlots.Proofs.Session.Settling
import PlayerSlots.Proofs.Session.Resize
import PlayerSlots.Proofs.Session.RegistryOrder
import PlayerSlots.Proofs.Session.Numbering
import PlayerSlots.Proofs.Session.Lights
import PlayerSlots.Proofs.Session.NormalIds
import PlayerSlots.Proofs.Session.Bindings
import PlayerSlots.Proofs.Session.Reports
import PlayerSlots.Proofs.Session.Presence
import PlayerSlots.Proofs.Session.Routing
import PlayerSlots.Proofs.Session.Layouts
import PlayerSlots.Proofs.Text.Utf8
import PlayerSlots.Proofs.Json.Lexing
import PlayerSlots.Proofs.Json.RoundTrip
import PlayerSlots.Proofs.Json.Values
import PlayerSlots.Proofs.Numeric.Rounding
import PlayerSlots.Proofs.Numeric.Shortest
import PlayerSlots.Proofs.Numeric.Numerals
import PlayerSlots.Proofs.Binding.Rereading
import PlayerSlots.Proofs.Binding.Overflow
import PlayerSlots.Proofs.Snapshot.WriteBehind
import PlayerSlots.Proofs.Snapshot.RoundTrip
import PlayerSlots.Proofs.Snapshot.Reloading
import PlayerSlots.Proofs.Settings.Watching
import PlayerSlots.Proofs.Settings.Following
import PlayerSlots.Proofs.Slot.Exchange
import PlayerSlots.Proofs.Slot.Renumbering
import PlayerSlots.Proofs.Settings.Changes
import PlayerSlots.Proofs.Snapshot.Shutdown
