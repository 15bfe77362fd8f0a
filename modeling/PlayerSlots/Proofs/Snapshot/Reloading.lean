import PlayerSlots.Proofs.Binding.Overflow
import PlayerSlots.Proofs.Session.Bindings
import PlayerSlots.Proofs.Snapshot.RoundTrip

/-! # Loaded snapshots, saved and loaded again

* `Snapshot.Loaded`: some text or some bytes are read as the snapshot.
* `Snapshot.SinglesFinite`: no single-precision number in it is an infinity, as those are that
  overflow when they are loaded.
* `loaded_comes_back_iff`: a loaded snapshot comes back at all exactly if its single-precision
  numbers are finite, and unchanged exactly if each of its numbers is read back as it was.
* `overflow_never_comes_back`: a number beyond single precision loads, and the snapshot with it
  never loads again.
-/

namespace PlayerSlots
set_option autoImplicit false

open Json

/-! ## What a document can hold -/

theorem Slot.of_ofJson? {depth : Nat} {j : Json} {t : Slot} (h : ofJson? depth j = some t) :
    t.index < wordBound ∧ ∃ depth' j', Binding.ofJson? depth' j' = some t.binding := by
  obtain ⟨members, -, h⟩ := Option.bind_eq_some_iff.1 h
  obtain ⟨index, hindex, h⟩ := Option.bind_eq_some_iff.1 h
  obtain ⟨device, -, h⟩ := Option.bind_eq_some_iff.1 h
  obtain ⟨binding, hbinding, h⟩ := Option.bind_eq_some_iff.1 h
  cases h
  constructor
  · obtain ⟨j', -, hj'⟩ := Option.bind_eq_some_iff.1 hindex
    obtain ⟨i, -, hi⟩ := Option.bind_eq_some_iff.1 hj'
    split at hi
    · next hrange =>
      cases hi
      show i.toNat < wordBound
      omega
    · cases hi
  · obtain ⟨j', -, hj'⟩ := Option.bind_eq_some_iff.1 hbinding
    exact ⟨_, j', hj'⟩

namespace Snapshot

/-- Some text, or some bytes, are read as the snapshot. -/
def Loaded (s : Snapshot) : Prop :=
  (∃ text, read? text = some s) ∨ ∃ bytes, readBytes? bytes = some s

/-- No single-precision number is an infinity. -/
def SinglesFinite (s : Snapshot) : Prop := ∀ t ∈ s.slots, t.binding.SinglesFinite

theorem of_ofJson? {j : Json} {s : Snapshot} (h : ofJson? j = some s) :
    s.InRange ∧ ∀ t ∈ s.slots, ∃ depth j', Binding.ofJson? depth j' = some t.binding := by
  obtain ⟨members, -, h⟩ := Option.bind_eq_some_iff.1 h
  obtain ⟨timestamp, htimestamp, h⟩ := Option.bind_eq_some_iff.1 h
  obtain ⟨version, -, h⟩ := Option.bind_eq_some_iff.1 h
  obtain ⟨slots, hslots, h⟩ := Option.bind_eq_some_iff.1 h
  cases h
  have hslot : ∀ t ∈ slots, ∃ j', Slot.ofJson? 2 j' = some t := by
    obtain ⟨j', -, hj'⟩ := Option.bind_eq_some_iff.1 hslots
    unfold asList? at hj'
    split at hj'
    · intro t ht
      obtain ⟨k, -, hk⟩ := exists_of_mem_mapM hj' ht
      exact ⟨k, hk⟩
    · cases hj'
  have htime : -0x8000000000000000 ≤ timestamp ∧ timestamp < 0x8000000000000000 := by
    obtain ⟨j', -, hj'⟩ := Option.bind_eq_some_iff.1 htimestamp
    obtain ⟨i, -, hi⟩ := Option.bind_eq_some_iff.1 hj'
    split at hi
    · next hrange =>
      cases hi
      exact hrange
    · cases hi
  refine ⟨⟨htime.1, htime.2, fun t ht => ?_⟩, fun t ht => ?_⟩
  · obtain ⟨j', hj'⟩ := hslot t ht
    exact (Slot.of_ofJson? hj').1
  · obtain ⟨j', hj'⟩ := hslot t ht
    exact (Slot.of_ofJson? hj').2

/-- Every loaded snapshot fits its machine words, and its double-precision numbers are finite. -/
theorem Loaded.spec {s : Snapshot} (h : s.Loaded) :
    s.InRange ∧ ∀ t ∈ s.slots, t.binding.Finite ↔ t.binding.SinglesFinite := by
  have hdocument : ∃ j, ofJson? j = some s := by
    rcases h with ⟨text, h⟩ | ⟨bytes, h⟩
    · obtain ⟨j, -, hj⟩ := Option.bind_eq_some_iff.1 h
      exact ⟨j, hj⟩
    · obtain ⟨j, -, hj⟩ := Option.bind_eq_some_iff.1 h
      exact ⟨j, hj⟩
  obtain ⟨j, hj⟩ := hdocument
  obtain ⟨hrange, hslots⟩ := of_ofJson? hj
  refine ⟨hrange, fun t ht => ?_⟩
  obtain ⟨depth, j', hj'⟩ := hslots t ht
  exact Binding.finite_iff_of_ofJson? hj'

/-! ## Loading again -/

theorem isSome_reread?_iff (s : Snapshot) :
    s.reread?.isSome ↔ ∀ t ∈ s.slots, t.binding.Finite := by
  have hslot : ∀ t : Slot, t.reread?.isSome ↔ t.binding.Finite := by
    intro t
    rw [← t.binding.isSome_reread?_iff]
    cases hb : t.binding.reread? <;> simp [Slot.reread?, hb]
  have hslots : s.reread?.isSome ↔ (s.slots.mapM Slot.reread?).isSome := by
    cases hs : s.slots.mapM Slot.reread? <;> simp [reread?, hs]
  rw [hslots, isSome_mapM_iff]
  exact forall₂_congr fun t _ => hslot t

end Snapshot

/-- A loaded snapshot that is saved and loaded again, in either style and as text or as bytes, is
the one with each floating-point number as its text is read. It is there exactly if no
single-precision number has overflowed, and unchanged exactly if each number is read back as it was.
If none has overflowed, and none of the provider's is infinite, every table that a session saves
from there on loads again as well. -/
theorem loaded_comes_back_iff {s : Snapshot} (h : s.Loaded) (style : Style) :
    Snapshot.read? (s.render style) = s.reread? ∧ Snapshot.readBytes? (s.bytes style) = s.reread? ∧
    (s.reread? = some s ↔ s.FloatsReadBack) ∧ (s.reread?.isSome ↔ s.SinglesFinite) ∧
    (s.SinglesFinite → ∀ (provider : Provider) (settings : AutoAssign) (commands : List Command),
      (∀ name, (provider.binding name).Finite) → settings.maxSlots ≤ wordBound →
      (∀ c ∈ commands, ∀ m ∈ c.limit?, m ≤ wordBound) →
      ∀ table ∈ Effect.savedLists
          ((Worker.running (.start settings s.slots)).run provider commands).2,
        ∀ now, -0x8000000000000000 ≤ now → now < 0x8000000000000000 →
          (Snapshot.read? ((Snapshot.take now table).render style)).isSome ∧
            (Snapshot.readBytes? ((Snapshot.take now table).bytes style)).isSome) := by
  obtain ⟨hrange, hdoubles⟩ := h.spec
  have hfinite : (∀ t ∈ s.slots, t.binding.Finite) ↔ s.SinglesFinite := forall₂_congr hdoubles
  refine ⟨Snapshot.read?_render hrange style, Snapshot.readBytes?_bytes hrange style,
    s.reread?_eq_self_iff, s.isSome_reread?_iff.trans hfinite, ?_⟩
  intro hsingles provider settings commands hprovider hlimit hlimits table htable now hlow hhigh
  have hcolor : ∀ color b, Binding.Finite b → (b.setColor color).Finite :=
    fun color b hb => (b.finite_setColor color).2 hb
  have hstart : (Session.start settings s.slots).Holds Binding.Finite wordBound :=
    .start hlimit (hfinite.2 hsingles)
  obtain ⟨hbindings, hindices⟩ :=
    Worker.forall_savedLists_run hcolor hprovider hlimits hstart table htable
  have htaken : (Snapshot.take now table).InRange :=
    { timestamp_ge := hlow
      timestamp_lt := hhigh
      index_lt := fun t ht => hindices t.index (List.mem_map_of_mem ht) }
  rw [Snapshot.read?_render htaken, Snapshot.readBytes?_bytes htaken]
  exact ⟨(Snapshot.isSome_reread?_iff _).2 hbindings, (Snapshot.isSome_reread?_iff _).2 hbindings⟩

/-- A default layout is loaded, and the session on it saves one for another device. -/
theorem loaded_comes_back_iff_standard :
    let s : Snapshot := .take 0 [⟨0, "a", .standard .joyconLeft⟩]
    let commands : List Command := [.update { maxSlots := 2 }, .connect ⟨"b", "Pad"⟩]
    s.Loaded ∧ Snapshot.read? (s.render .compact) = s.reread? ∧
      Snapshot.readBytes? (s.bytes .compact) = s.reread? ∧
      (s.reread? = some s ↔ s.FloatsReadBack) ∧ (s.reread?.isSome ↔ s.SinglesFinite) ∧
      s.SinglesFinite ∧ (∀ name, (Provider.byName.binding name).Finite) ∧
      (∀ c ∈ commands, ∀ m ∈ c.limit?, m ≤ wordBound) ∧
      ∀ table ∈ Effect.savedLists ((Worker.running (.start {} s.slots)).run .byName commands).2,
        (Snapshot.read? ((Snapshot.take 1 table).render .compact)).isSome ∧
          (Snapshot.readBytes? ((Snapshot.take 1 table).bytes .compact)).isSome := by
  intro s commands
  have hfloats : s.FloatsReadBack := by
    intro t ht
    rw [List.mem_singleton.1 ht]
    exact Binding.floatsReadBack_standard .joyconLeft
  have hrange : s.InRange :=
    { timestamp_ge := by decide, timestamp_lt := by decide,
      index_lt := by simp [s, Snapshot.take, wordBound] }
  have hloaded : s.Loaded := by
    refine .inl ⟨s.render .pretty, ?_⟩
    rw [Snapshot.read?_render hrange, s.reread?_eq_self_iff.2 hfloats]
  have hprovider : ∀ name, (Provider.byName.binding name).Finite :=
    fun name => (Binding.floatsReadBack_standard (.ofName name)).finite
  have hlimits : ∀ c ∈ commands, ∀ m ∈ c.limit?, m ≤ wordBound := by
    simp [commands, Command.limit?, wordBound, UInt64.size]
  obtain ⟨htext, hbytes, hself, hfinite, hrun⟩ := loaded_comes_back_iff hloaded .compact
  have hsingles : s.SinglesFinite := hfinite.1 (by rw [hself.2 hfloats]; rfl)
  refine ⟨hloaded, htext, hbytes, hself, hfinite, hsingles, hprovider, hlimits, ?_⟩
  intro table htable
  exact hrun hsingles .byName {} commands hprovider (by decide) hlimits table htable 1 (by decide)
    (by decide)

/-- The document with another value in one of its fields. -/
def Json.setField (j : Json) (name : String) (new : Json) : Json :=
  match j with
  | object fields => object (fields.map fun f => if f.1 = some name then (f.1, new) else f)
  | j => j

theorem Json.Written.setField {name : String} {new j : Json} (h : Written j) (hnew : Written new) :
    Written (j.setField name new) := by
  cases h with
  | @record fields hf =>
    have hset : (Json.record fields).setField name new
        = Json.record (fields.map fun f => if f.1 = name then (f.1, new) else f) := by
      rw [Json.record, Json.record, Json.setField, List.map_map, List.map_map]
      refine congrArg _ (List.map_congr_left fun f _ => ?_)
      by_cases hname : f.1 = name <;> simp [hname]
    rw [hset]
    refine .record fun f hmem => ?_
    obtain ⟨g, hg, rfl⟩ := List.mem_map.1 hmem
    split
    · exact hnew
    · exact hf g hg
  | null => exact .null
  | bool b => exact .bool b
  | number n => exact .number n
  | str s => exact .str s
  | array hj => exact .array hj

/-- The document of a snapshot with one slot, whose binding is the given document. -/
def Snapshot.oneSlot (binding : Json) : Json :=
  record
    [("timestamp", int 0), ("version", str currentVersion),
      ("bindings",
        array [record [("slot_index", nat 0), ("device_id", str "a"), ("binding", binding)]])]

theorem Snapshot.read?_oneSlot {binding : Json} (h : Written binding) (style : Style) :
    read? ((oneSlot binding).render style) = ofJson? (oneSlot binding) := by
  have hslot : Written
      (record [("slot_index", nat 0), ("device_id", str "a"), ("binding", binding)]) :=
    .record (by simp [Written.str, h])
  have hslots : Written
      (array [record [("slot_index", nat 0), ("device_id", str "a"), ("binding", binding)]]) :=
    .array (by simp [hslot])
  have hdocument : Written (oneSlot binding) :=
    .record (by simp [Written.str, Written.number, int, hslots])
  simp only [read?, hdocument.parse?_render, Option.bind_eq_bind, Option.bind_some]

/-- A layout whose left dead zone is beyond single precision is loaded, and then never again. One
whose gyroscope has a dead zone of four times ten to the minus twenty-fifth comes back with
another. -/
theorem overflow_never_comes_back :
    let layout : Json := (Binding.standard .pro).toJson
    let far : Json := layout.setField "deadzone_left" (number ⟨false, 1, [], some 39⟩)
    let motion : Json :=
      record
        [("backend", str "gamepad_driver"), ("enable_motion", bool true), ("sensitivity", nat 100),
          ("gyro_deadzone", number ⟨false, 4, [], some (-25)⟩)]
    let small : Json := layout.setField "motion" motion
    let farText : String := (Snapshot.oneSlot far).render .compact
    let smallText : String := (Snapshot.oneSlot small).render .compact
    ((Snapshot.read? farText).isSome ∧ ∀ s, Snapshot.read? farText = some s → ∀ style,
      Snapshot.read? (s.render style) = none ∧ Snapshot.readBytes? (s.bytes style) = none) ∧
    ((Snapshot.read? smallText).isSome ∧ ∀ s, Snapshot.read? smallText = some s → ∀ style, ∃ r,
      Snapshot.read? (s.render style) = some r ∧ Snapshot.readBytes? (s.bytes style) = some r ∧
        r ≠ s) := by
  intro layout far motion small farText smallText
  have hlayout : Written layout := Binding.written_toJson _
  have hmotion : Written motion := .record (by simp [Written.str, Written.bool, Written.number])
  have hfar : Snapshot.read? farText = Snapshot.ofJson? (Snapshot.oneSlot far) :=
    Snapshot.read?_oneSlot (hlayout.setField (.number _)) .compact
  have hsmall : Snapshot.read? smallText = Snapshot.ofJson? (Snapshot.oneSlot small) :=
    Snapshot.read?_oneSlot (hlayout.setField hmotion) .compact
  have hlost : (Snapshot.ofJson? (Snapshot.oneSlot far)).bind Snapshot.reread? = none := by
    decide +kernel
  have hchanged : (Snapshot.ofJson? (Snapshot.oneSlot small)).bind
      (fun s => s.reread?.map fun r => decide (r ≠ s)) = some true := by decide +kernel
  refine ⟨⟨by rw [hfar]; decide +kernel, fun s hs style => ?_⟩,
    by rw [hsmall]; decide +kernel, fun s hs style => ?_⟩
  · have hrange := (Snapshot.Loaded.spec (.inl ⟨_, hs⟩)).1
    rw [hfar] at hs
    rw [hs, Option.bind_some] at hlost
    rw [Snapshot.read?_render hrange, Snapshot.readBytes?_bytes hrange, hlost]
    exact ⟨rfl, rfl⟩
  · have hrange := (Snapshot.Loaded.spec (.inl ⟨_, hs⟩)).1
    rw [hsmall] at hs
    rw [hs, Option.bind_some, Option.map_eq_some_iff] at hchanged
    obtain ⟨r, hr, hne⟩ := hchanged
    rw [Snapshot.read?_render hrange, Snapshot.readBytes?_bytes hrange, hr]
    exact ⟨r, rfl, rfl, of_decide_eq_true hne⟩

end PlayerSlots
