/-!
# Blank characters and identifier characters

The two character classes that separate words.  A character is *blank* when it has the Unicode
property `White_Space` or is one of the four information separators `U+001C` to `U+001F`; blanks
may stand between tokens and inside an expression.  Identifiers are made of ASCII letters, ASCII
digits and the low line, and do not start with a digit.
-/

namespace TextTemplate

namespace Text

/-- The inclusive ranges of the code points of blank characters, in ascending order. -/
def blankRanges : List (Nat × Nat) :=
  [(0x09, 0x0D), (0x1C, 0x20), (0x85, 0x85), (0xA0, 0xA0), (0x1680, 0x1680), (0x2000, 0x200A),
    (0x2028, 0x2029), (0x202F, 0x202F), (0x205F, 0x205F), (0x3000, 0x3000)]

/-- Whether `c` is a blank character. -/
def isBlank (c : Char) : Bool :=
  blankRanges.any fun (first, last) => first ≤ c.toNat && c.toNat ≤ last

/-- The characters that core calls whitespace are blank. -/
theorem isBlank_of_isWhitespace {c : Char} (h : c.isWhitespace = true) : isBlank c = true := by
  simp only [Char.isWhitespace, Bool.or_eq_true, decide_eq_true_eq] at h
  rcases h with ((h | h) | h) | h <;> subst h <;> decide

/-- The ranges ascend without touching, and hold 29 code points. -/
example : blankRanges.Pairwise (fun a b => a.2 + 1 < b.1) ∧
    (blankRanges.map fun a => a.2 + 1 - a.1).sum = 29 := by
  decide

/-- The end of a line is blank, and the solidus that starts a comment is not. -/
example : isBlank '\n' = true ∧ isBlank '/' = false := by decide

/-! ### Identifiers -/

/-- Whether `c` may start an identifier: an ASCII letter or the low line. -/
def isIdentifierStart (c : Char) : Bool := c.isAlpha || c == '_'

/-- Whether `c` may continue an identifier: an ASCII letter, an ASCII digit or the low line. -/
def isIdentifierPart (c : Char) : Bool := c.isAlphanum || c == '_'

/-- Whether the characters spell an identifier. -/
def isIdentifier : List Char → Bool
  | [] => false
  | c :: rest => isIdentifierStart c && rest.all isIdentifierPart

theorem isIdentifierPart_of_isIdentifierStart {c : Char} (h : isIdentifierStart c = true) :
    isIdentifierPart c = true := by
  simp only [isIdentifierStart, Bool.or_eq_true] at h
  simp only [isIdentifierPart, Char.isAlphanum, Bool.or_eq_true]
  exact h.imp Or.inl id

end Text

end TextTemplate
