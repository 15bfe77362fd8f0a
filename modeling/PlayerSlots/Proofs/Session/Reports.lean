import Mathlib
import PlayerSlots.Proofs.Session.Run

/-! # What was reported

Three kinds of commands report who is there: a device that comes, a device that goes, and all
devices at once. Here is what a list of commands says about a device at its end, without regard to
any session.

* `Command.word?`, `Command.fullList?`, `Command.nameFor?`: what one command reports.
* `Command.lastWord?`, `Command.lastName?`: the last word about a device, and the last name for it.
* `Command.Began`: when the presence of a device began. `Command.exists_began_iff` says that it did
  iff the last word is that the device is there.
* `Command.LeavesNobody`: what a client sends that reports everyone gone in the end.
-/

namespace PlayerSlots
set_option autoImplicit false

variable {commands : List Command} {c : Command} {i : String}

namespace Command

/-! ## What one command reports -/

/-- Whether a command reports that a device is there or that it is not. A device is reported gone by
any id with its normal form. -/
def word? (i : String) : Command → Option Bool
  | .connect d => if d.id = i then some true else none
  | .disconnect id => if normalizeId id = i then some false else none
  | .resync ds => some (decide (i ∈ ds.map (·.id)))
  | _ => none

/-- The devices of a report of all that are there. -/
def fullList? : Command → Option (List Device)
  | .resync ds => some ds
  | _ => none

/-- The name of a device that a command reports to be there. -/
def nameFor? (i : String) : Command → Option String
  | .connect d => if d.id = i then some d.name else none
  | _ => none

theorem nameFor?_of_word?_eq_none (h : c.word? i = none) : c.nameFor? i = none := by
  cases c with
  | connect d =>
    have hd : d.id ≠ i := by
      rintro rfl
      simp [word?] at h
    simp [nameFor?, hd]
  | _ => rfl

/-! ## What many commands report in the end -/

/-- The last word on whether a device is there. -/
def lastWord? (i : String) (commands : List Command) : Option Bool :=
  (commands.filterMap (word? i)).getLast?

/-- The devices of the last full report. -/
def lastFullList (commands : List Command) : List Device :=
  (commands.filterMap fullList?).getLast?.getD []

/-- The commands after the last full report. -/
def sinceFullList (commands : List Command) : List Command :=
  commands.rtakeWhile fun c => c.fullList?.isNone

/-- The last name reported since the last full report, or else the first one in it. -/
def lastName? (i : String) (commands : List Command) : Option String :=
  ((sinceFullList commands).filterMap (nameFor? i)).getLast?.or
    (((lastFullList commands).find? (·.id = i)).map (·.name))

/-- After some commands another one makes a device present, at some place of its report. A single
device that is there already stays present, but a full report begins anew with everyone. -/
inductive Brings (before : List Command) (i : String) : Command → Nat → Prop
  | connect (name : String) (h : lastWord? i before ≠ some true) :
      Brings before i (.connect ⟨i, name⟩) 0
  | resync (ds : List Device) (h : i ∈ ds.map (·.id)) :
      Brings before i (.resync ds) ((ds.map (·.id)).idxOf i)

/-- The device is there in the end and has been since the command number `k`, in whose report it
stands at place `p`. -/
def Began (commands : List Command) (i : String) (k p : Nat) : Prop :=
  ∃ before c after, commands = before ++ c :: after ∧ before.length = k ∧ Brings before i c p ∧
    ∀ d ∈ after, d.fullList? = none ∧ d.word? i ≠ some false

theorem getLast?_filterMap_concat {α β : Type} (f : α → Option β) (l : List α) (a : α) :
    ((l ++ [a]).filterMap f).getLast? = (f a).or (l.filterMap f).getLast? := by
  rw [List.filterMap_append, List.getLast?_append]
  cases hf : f a with
  | none => rw [List.filterMap_cons_none hf]; rfl
  | some b => rw [List.filterMap_cons_some hf]; rfl

theorem lastWord?_concat (i : String) (commands : List Command) (c : Command) :
    lastWord? i (commands ++ [c]) = (c.word? i).or (lastWord? i commands) :=
  getLast?_filterMap_concat _ _ _

theorem lastName?_concat (i : String) (commands : List Command) (hc : c.fullList? = none) :
    lastName? i (commands ++ [c]) = (c.nameFor? i).or (lastName? i commands) := by
  have hsince : sinceFullList (commands ++ [c]) = sinceFullList commands ++ [c] := by
    rw [sinceFullList, List.rtakeWhile_concat, if_pos (by rw [hc]; rfl)]
    rfl
  have hlist : lastFullList (commands ++ [c]) = lastFullList commands := by
    rw [lastFullList, getLast?_filterMap_concat, hc]
    rfl
  rw [lastName?, hsince, hlist, getLast?_filterMap_concat, Option.or_assoc]
  rfl

theorem lastName?_resync (i : String) (commands : List Command) (ds : List Device) :
    lastName? i (commands ++ [.resync ds]) = (ds.find? (·.id = i)).map (·.name) := by
  have hsince : sinceFullList (commands ++ [.resync ds]) = [] := by
    rw [sinceFullList, List.rtakeWhile_concat, if_neg (by simp [fullList?])]
  have hlist : lastFullList (commands ++ [.resync ds]) = ds := by
    rw [lastFullList, getLast?_filterMap_concat]
    rfl
  rw [lastName?, hsince, hlist]
  rfl

/-! ## The beginning of a presence -/

theorem Brings.word?_eq {before : List Command} {p : Nat} (h : Brings before i c p) :
    c.word? i = some true := by
  cases h with
  | connect name h => simp [word?]
  | resync ds h => exact congrArg some (decide_eq_true h)

theorem began_concat_iff {k p : Nat} :
    Began (commands ++ [c]) i k p ↔
      (Began commands i k p ∧ c.fullList? = none ∧ c.word? i ≠ some false) ∨
        (k = commands.length ∧ Brings commands i c p) := by
  constructor
  · rintro ⟨before, c', after, heq, hlen, hbrings, hafter⟩
    rcases List.eq_nil_or_concat after with rfl | ⟨rest, d, rfl⟩
    · right
      obtain ⟨rfl, hc⟩ := List.append_inj' heq rfl
      cases hc
      exact ⟨hlen.symm, hbrings⟩
    · left
      rw [List.concat_eq_append, ← List.cons_append, ← List.append_assoc] at heq
      rw [List.concat_eq_append] at hafter
      obtain ⟨rfl, hd⟩ := List.append_inj' heq rfl
      cases hd
      have hlast := hafter c (List.mem_append_right _ (List.mem_singleton.2 rfl))
      exact ⟨⟨before, c', rest, rfl, hlen, hbrings,
        fun d hd => hafter d (List.mem_append_left _ hd)⟩, hlast⟩
  · rintro (⟨⟨before, c', after, rfl, hlen, hbrings, hafter⟩, hlist, hword⟩ | ⟨rfl, hbrings⟩)
    · refine ⟨before, c', after ++ [c], by simp, hlen, hbrings, ?_⟩
      intro d hd
      rcases List.mem_append.1 hd with hd | hd
      · exact hafter d hd
      · rw [List.mem_singleton.1 hd]
        exact ⟨hlist, hword⟩
    · exact ⟨commands, c, [], rfl, rfl, hbrings, nofun⟩

/-- Those and only those who are there in the end have a beginning of their presence. -/
theorem exists_began_iff (i : String) (commands : List Command) :
    (∃ k p, Began commands i k p) ↔ lastWord? i commands = some true := by
  induction commands using List.reverseRecOn with
  | nil =>
    refine iff_of_false ?_ (by simp [lastWord?])
    rintro ⟨k, p, before, c, after, heq, -⟩
    simp at heq
  | append_singleton commands c ih =>
    rw [lastWord?_concat]
    constructor
    · rintro ⟨k, p, hbegan⟩
      rcases began_concat_iff.1 hbegan with ⟨hbefore, -, hword⟩ | ⟨-, hbrings⟩
      · rw [ih.1 ⟨k, p, hbefore⟩]
        rcases hw : c.word? i with _ | _ | _
        · rfl
        · exact absurd hw hword
        · rfl
      · rw [hbrings.word?_eq]
        rfl
    · intro hthere
      by_cases hlast : lastWord? i commands = some true ∧ c.fullList? = none
      · obtain ⟨k, p, hbefore⟩ := ih.2 hlast.1
        refine ⟨k, p, began_concat_iff.2 (.inl ⟨hbefore, hlast.2, ?_⟩)⟩
        intro hgone
        rw [hgone] at hthere
        cases hthere
      · -- the last command must have brought the device
        have hbrings : ∃ p, Brings commands i c p := by
          cases c with
          | connect d =>
            have hnot : lastWord? i commands ≠ some true := fun h => hlast ⟨h, rfl⟩
            by_cases hd : d.id = i
            · subst hd
              exact ⟨0, .connect d.name hnot⟩
            · rw [word?, if_neg hd] at hthere
              exact absurd hthere hnot
          | resync ds =>
            have hin : i ∈ ds.map (·.id) := of_decide_eq_true (Option.some.inj hthere)
            exact ⟨_, .resync ds hin⟩
          | disconnect id =>
            have hnot : lastWord? i commands ≠ some true := fun h => hlast ⟨h, rfl⟩
            rw [word?] at hthere
            split at hthere
            · cases hthere
            · exact absurd hthere hnot
          | _ => exact absurd hthere fun h => hlast ⟨h, rfl⟩
        obtain ⟨p, hp⟩ := hbrings
        exact ⟨commands.length, p, began_concat_iff.2 (.inr ⟨rfl, hp⟩)⟩

theorem Began.lt_length {k p : Nat} (h : Began commands i k p) : k < commands.length := by
  obtain ⟨before, c, after, rfl, rfl, -⟩ := h
  simp

/-- A single report begins no presence of a device that is there already. -/
theorem Began.of_concat {k p : Nat} (h : Began (commands ++ [c]) i k p) (hc : c.fullList? = none)
    (hi : lastWord? i commands = some true) : Began commands i k p := by
  rcases began_concat_iff.1 h with ⟨hbefore, -⟩ | ⟨-, hbrings⟩
  · exact hbefore
  · cases hbrings with
    | connect name hnot => exact absurd hi hnot
    | resync ds _ => cases hc

theorem Began.eq_length {k p : Nat} (h : Began (commands ++ [c]) i k p)
    (hi : lastWord? i commands ≠ some true) : k = commands.length := by
  rcases began_concat_iff.1 h with ⟨hbefore, -⟩ | ⟨hk, -⟩
  · exact absurd ((exists_began_iff i commands).1 ⟨k, p, hbefore⟩) hi
  · exact hk

/-! ## Several clients -/

/-- What one of several clients sent, out of all that came, in its order. -/
def sentBy (client : Nat) (sent : List (Nat × Command)) : List Command :=
  (sent.filter (·.1 = client)).map (·.2)

/-- Each device that is reported to be there is reported gone later. -/
def LeavesNobody (own : List Command) : Prop :=
  ∀ before d after, own = before ++ .connect d :: after →
    ∃ id, .disconnect id ∈ after ∧ normalizeId id = d.id

theorem leavesNobody_nil : LeavesNobody [] := fun before _ _ h => by
  cases before <;> cases h

theorem leavesNobody_cons_iff {rest : List Command} :
    LeavesNobody (c :: rest) ↔
      (∀ d, c = .connect d → ∃ id, .disconnect id ∈ rest ∧ normalizeId id = d.id) ∧
        LeavesNobody rest := by
  constructor
  · intro h
    refine ⟨fun d hd => h [] d rest (by rw [hd]; rfl), ?_⟩
    rintro before d after rfl
    exact h (c :: before) d after rfl
  · rintro ⟨hfirst, hrest⟩ before d after heq
    cases before with
    | nil =>
      cases heq
      exact hfirst d rfl
    | cons b before =>
      cases heq
      exact hrest before d after rfl

/-- However the commands of such clients meet, the last word is never that a device is there. -/
theorem LeavesNobody.lastWord?_ne {sent : List (Nat × Command)}
    (hlists : ∀ m ∈ sent, m.2.fullList? = none)
    (hleave : ∀ client, LeavesNobody (sentBy client sent)) (i : String) :
    lastWord? i (sent.map (·.2)) ≠ some true := by
  intro hthere
  obtain ⟨k, p, before, c, after, hsplit, -, hbrings, hafter⟩ := (exists_began_iff i _).2 hthere
  obtain ⟨sent₁, rest, rfl, -, hrest⟩ := List.map_eq_append_iff.1 hsplit
  obtain ⟨m, sent₂, rfl, rfl, rfl⟩ := List.map_eq_cons_iff.1 hrest
  have hm := hlists m (List.mem_append_right _ (List.mem_cons_self ..))
  obtain ⟨client, c⟩ := m
  cases hbrings with
  | resync ds _ => cases hm
  | connect name _ =>
    have hown : sentBy client (sent₁ ++ (client, .connect ⟨i, name⟩) :: sent₂)
        = sentBy client sent₁ ++ .connect ⟨i, name⟩ :: sentBy client sent₂ := by
      simp [sentBy, List.filter_append]
    obtain ⟨id, hid, hnormal⟩ := hleave client _ _ _ hown
    -- the client's own disconnect comes later among all commands as well
    have hlater : .disconnect id ∈ sent₂.map (·.2) := (List.filter_sublist.map _).subset hid
    exact (hafter _ hlater).2 (if_pos hnormal)

end Command

end PlayerSlots
