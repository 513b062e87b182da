/-!
# Cutting a text at a character

`cutAt? mark text` splits a text at the first occurrence of a character, and `splitAll mark text`
at every one.  That nothing is lost is `cutAt?_eq_some_iff` and `joinWith_splitAll`.
-/

namespace TextTemplate

namespace Text

/-- The characters before and after the first `mark`, or `none` if there is no `mark`. -/
def cutAt? (mark : Char) : List Char → Option (List Char × List Char)
  | [] => none
  | c :: rest =>
    if c = mark then some ([], rest)
    else (cutAt? mark rest).map fun (before, after) => (c :: before, after)

theorem cutAt?_eq_none_iff {mark : Char} {text : List Char} :
    cutAt? mark text = none ↔ mark ∉ text := by
  induction text with
  | nil => simp [cutAt?]
  | cons c rest ih =>
    by_cases h : c = mark
    · simp [cutAt?, h]
    · simp [cutAt?, h, ih, Ne.symm h]

theorem cutAt?_eq_some_iff {mark : Char} {text before after : List Char} :
    cutAt? mark text = some (before, after) ↔ text = before ++ mark :: after ∧ mark ∉ before := by
  induction text generalizing before with
  | nil => simp [cutAt?]
  | cons c rest ih =>
    by_cases h : c = mark
    · subst h
      cases before <;> simp_all [cutAt?]
    · cases before with
      | nil => simp [cutAt?, h]
      | cons b before => simp [cutAt?, h, and_assoc]; grind

/-- The pieces between the occurrences of `mark`, one more than there are occurrences. -/
def splitAll (mark : Char) : List Char → List (List Char)
  | [] => [[]]
  | c :: rest =>
    if c = mark then [] :: splitAll mark rest
    else
      match splitAll mark rest with
      | [] => [[c]]
      | piece :: pieces => (c :: piece) :: pieces

/-- Pieces joined with one `mark` between neighbours. -/
def joinWith (mark : Char) : List (List Char) → List Char
  | [] => []
  | [piece] => piece
  | piece :: pieces => piece ++ mark :: joinWith mark pieces

theorem splitAll_ne_nil (mark : Char) (text : List Char) : splitAll mark text ≠ [] := by
  cases text with
  | nil => simp [splitAll]
  | cons c rest =>
    rw [splitAll]
    split
    · simp
    · split <;> simp

@[simp] theorem joinWith_splitAll (mark : Char) (text : List Char) :
    joinWith mark (splitAll mark text) = text := by
  induction text with
  | nil => rfl
  | cons c rest ih =>
    have := splitAll_ne_nil mark rest
    rw [splitAll]
    split
    · next h =>
      subst h
      cases hs : splitAll c rest with
      | nil => contradiction
      | cons piece pieces => rw [← ih, hs]; rfl
    · cases hs : splitAll mark rest with
      | nil => contradiction
      | cons piece pieces => rw [hs] at ih; cases pieces <;> simp_all [joinWith]

end Text

end TextTemplate
