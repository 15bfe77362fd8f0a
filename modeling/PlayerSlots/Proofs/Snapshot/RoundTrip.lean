import PlayerSlots.Proofs.Binding.Rereading
import PlayerSlots.Proofs.Json.RoundTrip
import PlayerSlots.Snapshot

/-! # Snapshots read back

A snapshot whose numbers fit their machine words is read back as it was written, in either style and
from its text as well as from its bytes, up to its floating-point numbers.

* `Snapshot.InRange`: the time and the positions fit their words.
* `Snapshot.reread?`: each floating-point number as its text is read. `Snapshot.read?_render` and
  `Snapshot.readBytes?_bytes` say that this is what comes back.
* `Snapshot.FloatsReadBack`, `Snapshot.reread?_eq_self_iff`: the snapshot itself comes back exactly
  if each of these numbers does.
* `snapshot_round_trip`: so no two such snapshots are written alike.
-/

namespace PlayerSlots
set_option autoImplicit false

open Json

def Slot.reread? (s : Slot) : Option Slot := do
  some { s with binding := ← s.binding.reread? }

theorem Slot.reread?_eq_self_iff (s : Slot) : s.reread? = some s ↔ s.binding.FloatsReadBack := by
  rw [← s.binding.reread?_eq_self_iff]
  cases s
  simp [reread?, Option.bind_eq_some_iff]

theorem Slot.ofJson?_toJson {depth : Nat} (hdepth : depth + 3 ≤ Binding.greatestDepth) {s : Slot}
    (h : s.index < wordBound) : ofJson? depth s.toJson = s.reread? := by
  have hindex : (nat s.index).asNat? wordBound = some s.index := asNat?_nat h (Nat.le_refl _)
  have hbinding : Binding.ofJson? (depth + 1) s.binding.toJson = s.binding.reread? :=
    Binding.ofJson?_toJson (by omega) s.binding
  simp [ofJson?, toJson, members?_record, reread?, hindex, hbinding]

namespace Snapshot

/-- The snapshot with each floating-point number as its text is read. -/
def reread? (s : Snapshot) : Option Snapshot := do
  some { s with slots := ← s.slots.mapM Slot.reread? }

/-- The time and the positions fit their machine words. -/
structure InRange (s : Snapshot) : Prop where
  timestamp_ge : -0x8000000000000000 ≤ s.timestamp
  timestamp_lt : s.timestamp < 0x8000000000000000
  index_lt : ∀ t ∈ s.slots, t.index < wordBound

theorem ofJson?_toJson {s : Snapshot} (h : s.InRange) : ofJson? s.toJson = s.reread? := by
  have htimestamp : (int s.timestamp).asInt64? = some s.timestamp :=
    asInt64?_int h.timestamp_ge h.timestamp_lt
  have hslots : (array (s.slots.map Slot.toJson)).asList? (Slot.ofJson? 2)
      = s.slots.mapM Slot.reread? := by
    rw [asList?, List.mapM_map]
    exact mapM_congr fun t ht => Slot.ofJson?_toJson (by decide) (h.index_lt t ht)
  simp [ofJson?, toJson, members?_record, reread?, htimestamp, hslots]

theorem written_toJson (s : Snapshot) : Written s.toJson := by
  have hslot : ∀ t : Slot, Written t.toJson := fun t =>
    .record (by simp [Written.str, t.binding.written_toJson])
  have hslots : Written (array (s.slots.map Slot.toJson)) :=
    .array fun j hj => by
      obtain ⟨t, ht, rfl⟩ := List.mem_map.1 hj
      exact hslot t
  exact .record (by simp [Written.str, Written.number, int, hslots])

theorem read?_render {s : Snapshot} (h : s.InRange) (style : Style) :
    read? (s.render style) = s.reread? := by
  rw [read?, render, s.written_toJson.parse?_render]
  exact ofJson?_toJson h

theorem readBytes?_bytes {s : Snapshot} (h : s.InRange) (style : Style) :
    readBytes? (s.bytes style) = s.reread? := by
  rw [readBytes?, bytes, render, s.written_toJson.read?_decode_encode]
  exact ofJson?_toJson h

/-- Every floating-point number is read back as it was. -/
def FloatsReadBack (s : Snapshot) : Prop := ∀ t ∈ s.slots, t.binding.FloatsReadBack

instance : DecidablePred FloatsReadBack :=
  fun s => inferInstanceAs (Decidable (∀ t ∈ s.slots, t.binding.FloatsReadBack))

theorem reread?_eq_self_iff (s : Snapshot) : s.reread? = some s ↔ s.FloatsReadBack := by
  have hslots : s.reread? = some s ↔ s.slots.mapM Slot.reread? = some s.slots := by
    cases s
    simp [reread?, Option.bind_eq_some_iff]
  rw [hslots, mapM_eq_some_self_iff]
  exact forall₂_congr fun t _ => t.reread?_eq_self_iff

end Snapshot

/-- A snapshot that fits its machine words and whose floating-point numbers are read back as they
were is read back as it was, and written like no other such snapshot. -/
theorem snapshot_round_trip {s : Snapshot} (hrange : s.InRange) (hfloats : s.FloatsReadBack)
    (style : Style) :
    Snapshot.read? (s.render style) = some s ∧ Snapshot.readBytes? (s.bytes style) = some s ∧
      ∀ t : Snapshot, t.InRange → t.FloatsReadBack →
        (t.render style = s.render style → t = s) ∧ (t.bytes style = s.bytes style → t = s) := by
  have htext : ∀ t : Snapshot, t.InRange → t.FloatsReadBack →
      Snapshot.read? (t.render style) = some t := by
    intro t hrange hfloats
    rw [Snapshot.read?_render hrange, t.reread?_eq_self_iff.2 hfloats]
  have hbytes : ∀ t : Snapshot, t.InRange → t.FloatsReadBack →
      Snapshot.readBytes? (t.bytes style) = some t := by
    intro t hrange hfloats
    rw [Snapshot.readBytes?_bytes hrange, t.reread?_eq_self_iff.2 hfloats]
  refine ⟨htext s hrange hfloats, hbytes s hrange hfloats, fun t ht htfloats => ⟨?_, ?_⟩⟩
  · intro heq
    have h := htext t ht htfloats
    rw [heq, htext s hrange hfloats] at h
    exact (Option.some.inj h).symm
  · intro heq
    have h := hbytes t ht htfloats
    rw [heq, hbytes s hrange hfloats] at h
    exact (Option.some.inj h).symm

/-- A default layout on the last position, an id with a quote in it, and a keyboard. -/
theorem snapshot_round_trip_both_kinds :
    let pad : Slot := ⟨wordBound - 1, "a\"b", .standard .joyconLeft⟩
    let keyboard : Slot := ⟨0, "", .keyboard ⟨.handheld, .ofList [("plus", "x"), ("minus", "y")]⟩⟩
    let s : Snapshot := { timestamp := -1, version := "1.0.0", slots := [pad, keyboard] }
    let t : Snapshot := { s with slots := [keyboard] }
    s.InRange ∧ s.FloatsReadBack ∧ Snapshot.read? (s.render .pretty) = some s ∧
      Snapshot.readBytes? (s.bytes .pretty) = some s ∧ t.InRange ∧ t.FloatsReadBack ∧
      (t.render .pretty = s.render .pretty → t = s) ∧
      (t.bytes .pretty = s.bytes .pretty → t = s) := by
  intro pad keyboard s t
  have hs : s.InRange :=
    { timestamp_ge := by decide, timestamp_lt := by decide,
      index_lt := by simp [s, pad, keyboard, wordBound] }
  have ht : t.InRange :=
    { timestamp_ge := by decide, timestamp_lt := by decide,
      index_lt := by simp [t, keyboard, wordBound] }
  have hfloats : s.FloatsReadBack := by
    simp only [Snapshot.FloatsReadBack, s, List.forall_mem_cons, List.not_mem_nil, false_imp_iff,
      implies_true, and_true]
    exact ⟨Binding.floatsReadBack_standard .joyconLeft, trivial⟩
  have hfloats' : t.FloatsReadBack := fun x hx => hfloats x (List.mem_cons_of_mem pad hx)
  obtain ⟨htext, hbytes, hinjective⟩ := snapshot_round_trip hs hfloats .pretty
  exact ⟨hs, hfloats, htext, hbytes, ht, hfloats', hinjective t ht hfloats'⟩

end PlayerSlots
