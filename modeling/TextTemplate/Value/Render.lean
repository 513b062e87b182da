import TextTemplate.Decimal.Layout
import TextTemplate.Value.Basic

/-!
# The text of a value

In a rendered text a value stands for itself: texts are written as they are, null is written as
nothing, the items of a list follow one another, and a map is written as a placeholder.  Numbers
with a fraction are written with the fewest digits that identify them, plainly from `10 ^ -5` up to
`10 ^ 16` and with a bare exponent otherwise; infinite and undefined numbers are written as
nothing.  A value that is no data has no text.
-/

namespace TextTemplate

namespace Value

/-- The format of floating point numbers in rendered texts. -/
def outputLayout : Layout := ⟨-5, 16, [], 1⟩

/-- What is written in place of a map. -/
def objectPlaceholder : String := "[object]"

/-- A node that is no data stands in the way of rendering. -/
structure UnexpectedNode where
  typeName : String
deriving DecidableEq, Repr

/-- The text of the failure, as shown to a user. -/
def UnexpectedNode.message (e : UnexpectedNode) : String :=
  "Unexpected context node type: " ++ e.typeName

/-- The text of a floating point number. -/
def floatText (x : Binary64) : String :=
  if x.isFinite then String.ofList (outputLayout.finite x) else ""

mutual

/-- The text of a value, unless it holds a node that is no data. -/
def render : Value → Except UnexpectedNode String
  | .null => .ok ""
  | .bool b => .ok (if b then "true" else "false")
  | .int n => .ok (toString n)
  | .float x => .ok (floatText x)
  | .text s => .ok s
  | .list items => renderItems items
  | .map _ => .ok objectPlaceholder
  | v => .error ⟨v.typeName⟩

/-- The texts of the items, one after the other. -/
def renderItems : List Value → Except UnexpectedNode String
  | [] => .ok ""
  | item :: rest =>
    match render item with
    | .error e => .error e
    | .ok s => (renderItems rest).map (s ++ ·)

end

end Value

end TextTemplate
