import TextTemplate.Text.Blank

/-!
# Items of an expression

The text between the angle brackets of an expression is read as identifiers and single characters,
with blanks around them left out.
-/

namespace TextTemplate

namespace Body

/-- An identifier or a single character of an expression. -/
inductive Item where
  | name (first : Char) (others : List Char)
  | mark (c : Char)
deriving DecidableEq, Repr

namespace Item

/-- The first character of the item. -/
def first : Item → Char
  | .name c _ | .mark c => c

/-- The characters of the item. -/
def characters : Item → List Char
  | .name c others => c :: others
  | .mark c => [c]

end Item

/-- An item with the index of its first character. -/
structure PlacedItem where
  item : Item
  index : Nat
deriving DecidableEq, Repr

/-- The items of a text whose first character has the given index. -/
def items (index : Nat) : List Char → List PlacedItem
  | [] => []
  | c :: rest =>
    if Text.isBlank c then items (index + 1) rest
    else if Text.isIdentifierStart c then
      let others := rest.takeWhile Text.isIdentifierPart
      ⟨.name c others, index⟩ :: items (index + 1 + others.length) (rest.drop others.length)
    else ⟨.mark c, index⟩ :: items (index + 1) rest
termination_by text => text.length
decreasing_by all_goals simp only [List.length_drop, List.length_cons]; omega

end Body

end TextTemplate
