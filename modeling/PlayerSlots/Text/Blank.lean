/-! # Blank characters and words

* `isBlank`: the characters with the Unicode property `White_Space`.
* `firstWord`: the first run of characters that are not blank.
* `words`: all such runs, in order.
-/

namespace PlayerSlots.Text
set_option autoImplicit false

/-- Whether a character has the Unicode property `White_Space`. -/
def isBlank (c : Char) : Bool :=
  let n := c.toNat
  (0x09 ≤ n && n ≤ 0x0D) || n == 0x20 || n == 0x85 || n == 0xA0 || n == 0x1680 ||
    (0x2000 ≤ n && n ≤ 0x200A) || n == 0x2028 || n == 0x2029 || n == 0x202F || n == 0x205F ||
    n == 0x3000

/-- The first run of characters that are not blank; empty if there is none. -/
def firstWord (cs : List Char) : List Char :=
  (cs.dropWhile isBlank).takeWhile (fun c => !isBlank c)

theorem length_dropWhile_le {α : Type} (p : α → Bool) (l : List α) :
    (l.dropWhile p).length ≤ l.length :=
  (List.dropWhile_suffix p).length_le

/-- What is left after the first word is shorter. -/
theorem length_afterWord_lt {cs rest : List Char} {c : Char} (h : cs.dropWhile isBlank = c :: rest) :
    (rest.dropWhile (fun c => !isBlank c)).length < cs.length := by
  have h1 := length_dropWhile_le isBlank cs
  have h2 := length_dropWhile_le (fun c => !isBlank c) rest
  rw [h, List.length_cons] at h1
  omega

/-- The runs of characters that are not blank, in order. -/
def words (cs : List Char) : List (List Char) :=
  match h : cs.dropWhile isBlank with
  | [] => []
  | c :: rest =>
    have := length_afterWord_lt h
    (c :: rest.takeWhile (fun c => !isBlank c)) :: words (rest.dropWhile (fun c => !isBlank c))
termination_by cs.length

/-- A word is read back as it is: its characters are not blank. -/
theorem firstWord_eq_self {cs : List Char} (h : ∀ c ∈ cs, isBlank c = false) :
    firstWord cs = cs := by
  have hd : cs.dropWhile isBlank = cs := by
    cases cs with
    | nil => rfl
    | cons c t => simp [h c (List.mem_cons_self ..)]
  rw [firstWord, hd]
  have ht : (cs ++ []).takeWhile (fun c => !isBlank c)
      = cs ++ [].takeWhile (fun c => !isBlank c) :=
    List.takeWhile_append_of_pos (fun c hc => by simp [h c hc])
  simpa using ht

theorem isBlank_of_mem_firstWord {cs : List Char} {c : Char} (h : c ∈ firstWord cs) :
    isBlank c = false := by
  have ha : firstWord cs |>.all (fun c => !isBlank c) := List.all_takeWhile
  simpa using List.all_eq_true.1 ha c h

/-- Taking the first word twice is taking it once. -/
theorem firstWord_firstWord (cs : List Char) : firstWord (firstWord cs) = firstWord cs :=
  firstWord_eq_self (fun _ h => isBlank_of_mem_firstWord h)

end PlayerSlots.Text
