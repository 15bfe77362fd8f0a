import PlayerSlots.Json.Reader
import PlayerSlots.Proofs.Json.Lexing
import PlayerSlots.Proofs.Text.Utf8

/-! # Documents read back

* `Reading.run_tokens`: from any state that expects a value, the tokens of a document lead to the
  state after this document, whatever follows.
* `Json.ofTokens?_tokens`: the tokens of a document give the document.
* `Json.Written.parse?_render`, `Json.Written.read?_decode_encode`: so a written document is read
  back from its text, and from the bytes of its text.
-/

namespace PlayerSlots.Json
set_option autoImplicit false

namespace Reading

/-- Reads tokens, one after another. -/
def run (r : Reading) (ts : List Token) : Option Reading := ts.foldlM step r

theorem run_cons {r r' : Reading} {t : Token} (h : r.step t = some r') (ts : List Token) :
    r.run (t :: ts) = r'.run ts := by
  rw [run, List.foldlM_cons, h]
  rfl

theorem exists_tokens (j : Json) : ∃ t ts, tokens j = t :: ts ∧ t ≠ .closeArray := by
  cases j with
  | null => exact ⟨.null, [], by rw [tokens], nofun⟩
  | bool b => exact ⟨.bool b, [], by rw [tokens], nofun⟩
  | number n => exact ⟨.number n, [], by rw [tokens], nofun⟩
  | text s => exact ⟨.text s, [], by rw [tokens], nofun⟩
  | array elements =>
    cases elements with
    | nil => exact ⟨.openArray, _, by rw [tokens], nofun⟩
    | cons j elements => exact ⟨.openArray, _, by rw [tokens]; rfl, nofun⟩
  | object fields =>
    cases fields with
    | nil => exact ⟨.openObject, _, by rw [tokens], nofun⟩
    | cons f fields => exact ⟨.openObject, _, by rw [tokens]; rfl, nofun⟩

/-- The first element of an array is read like any other value: no value starts with the end of an
array. -/
theorem run_firstElement (frames : List Frame) (j : Json) (more : List Token) :
    run ⟨frames, .firstElement⟩ (tokens j ++ more) = run ⟨frames, .value⟩ (tokens j ++ more) := by
  obtain ⟨t, ts, hts, ht⟩ := exists_tokens j
  have hstep : step ⟨frames, .firstElement⟩ t = step ⟨frames, .value⟩ t := by
    unfold step
    split <;> simp_all
  rw [hts, List.cons_append, run, run, List.foldlM_cons, List.foldlM_cons, hstep]

mutual

theorem run_tokens (frames : List Frame) (more : List Token) (j : Json) :
    run ⟨frames, .value⟩ (tokens j ++ more) = run ⟨frames, .after j⟩ more := by
  match j with
  | .null => rw [tokens]; exact run_cons rfl more
  | .bool b => rw [tokens]; exact run_cons rfl more
  | .number n => rw [tokens]; exact run_cons rfl more
  | .text s => rw [tokens]; exact run_cons rfl more
  | .array [] =>
    rw [tokens]
    exact (run_cons rfl _).trans (run_cons rfl more)
  | .array (j :: rest) =>
    have helements := run_elementTokens frames more [] j rest
    rw [tokens, List.append_assoc, List.append_assoc, List.append_assoc, List.singleton_append,
      run_cons rfl, run_firstElement, run_tokens, List.singleton_append, helements]
    rfl
  | .object [] =>
    rw [tokens]
    exact (run_cons rfl _).trans (run_cons rfl more)
  | .object ((name, j) :: rest) =>
    have hfields := run_fieldTokens frames more [] name j rest
    rw [tokens, List.append_assoc, List.append_assoc, List.append_assoc]
    simp only [List.cons_append, List.nil_append]
    rw [run_cons rfl, run_cons rfl, run_cons rfl, run_tokens, hfields]
    rfl

/-- The elements after `j`, which is the last of those read, and the end of the array. -/
theorem run_elementTokens (frames : List Frame) (more : List Token) (before : List Json) (j : Json)
    (elements : List Json) :
    run ⟨.array before :: frames, .after j⟩ (elementTokens elements ++ .closeArray :: more)
      = run ⟨frames, .after (.array (before.reverse ++ j :: elements))⟩ more := by
  match elements with
  | [] =>
    rw [elementTokens, List.nil_append, run_cons rfl, List.reverse_cons]
  | k :: rest =>
    rw [elementTokens, List.append_assoc, List.append_assoc, List.singleton_append, run_cons rfl,
      run_tokens, run_elementTokens, List.reverse_cons, List.append_assoc, List.singleton_append]

/-- The fields after one, which is the last of those read, and the end of the object. -/
theorem run_fieldTokens (frames : List Frame) (more : List Token)
    (before : List (Option String × Json)) (name : Option String) (j : Json)
    (fields : List (Option String × Json)) :
    run ⟨.object before name :: frames, .after j⟩ (fieldTokens fields ++ .closeObject :: more)
      = run ⟨frames, .after (.object (before.reverse ++ (name, j) :: fields))⟩ more := by
  match fields with
  | [] =>
    rw [fieldTokens, List.nil_append, run_cons rfl, List.reverse_cons]
  | (next, k) :: rest =>
    rw [fieldTokens, List.append_assoc, List.append_assoc]
    simp only [List.cons_append, List.nil_append]
    rw [run_cons rfl, run_cons rfl, run_cons rfl, run_tokens, run_fieldTokens, List.reverse_cons,
      List.append_assoc, List.singleton_append]

end

end Reading

theorem ofTokens?_tokens (j : Json) : ofTokens? (tokens j) = some j := by
  have h := Reading.run_tokens [] [] j
  rw [List.append_nil] at h
  show (Reading.run ⟨[], .value⟩ (tokens j)).bind Reading.finish? = _
  rw [h]
  rfl

/-- A written document is read back from its text. -/
theorem Written.parse?_render {j : Json} (h : Written j) (style : Style) :
    parse? (j.render style) = some j := by
  have hlex := h.lexes style 0 stops_nil
  rw [Token.Lexes, List.append_nil, List.map_nil, Token.lex?, Option.map_some, List.append_nil]
    at hlex
  rw [parse?, read?, render, String.toList_ofList, hlex]
  exact ofTokens?_tokens j

/-- A written document is read back from the bytes of its text. -/
theorem Written.read?_decode_encode {j : Json} (h : Written j) (style : Style) :
    read? (Text.decode (Text.encode (j.render style).toList)) = some j := by
  rw [Text.decode_encode]
  exact h.parse?_render style

end PlayerSlots.Json
