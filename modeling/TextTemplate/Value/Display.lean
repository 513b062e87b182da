import TextTemplate.Text.Quoted
import TextTemplate.Value.Data

/-!
# Displaying values

In messages a value is displayed so that its kind can be seen: texts are quoted, lists stand in
brackets, maps in braces, and null, the truth values and undefined numbers are named.
-/

namespace TextTemplate

namespace Value

/-- A floating point number as displayed. -/
def displayFloat (x : Binary64) : String :=
  if x.isFinite then String.ofList (displayLayout.finite x)
  else if x.isNaN then "nan"
  else if x.isNegative then "-inf"
  else "inf"

/-- Bytes as displayed: those of visible ASCII characters as that character. -/
def displayBytes (data : List UInt8) : String :=
  let characters := data.map fun b => Char.ofNat b.toNat
  let quote := Text.quoteFor characters
  let show1 (c : Char) : List Char :=
    if c.toNat < 0x80 then Text.displayed quote c else Text.codePointEscape c
  String.ofList ('b' :: quote :: characters.flatMap show1 ++ [quote])

mutual

/-- A value as displayed. -/
def display : Value → String
  | .null => "None"
  | .bool b => if b then "True" else "False"
  | .int n => toString n
  | .float x => displayFloat x
  | .text s => Text.quoted s
  | .list items => "[" ++ String.intercalate ", " (displayItems items) ++ "]"
  | .map entries => "\x7b" ++ String.intercalate ", " (displayEntries entries) ++ "\x7d"
  | .tuple [item] => "(" ++ display item ++ ",)"
  | .tuple items => "(" ++ String.intercalate ", " (displayItems items) ++ ")"
  | .set [] => "set()"
  | .set items => "\x7b" ++ String.intercalate ", " (displayItems items) ++ "\x7d"
  | .bytes data => displayBytes data
  | .template _ => "<Template>"
  | .staticGroup => "<StaticGroup>"
  | .group => "<Group>"
  | .context held => "Context(" ++ display held ++ ")"
  | .foreign typeName _ => "<" ++ typeName ++ ">"

/-- The items of a list as displayed. -/
def displayItems : List Value → List String
  | [] => []
  | item :: rest => display item :: displayItems rest

/-- The entries of a map as displayed. -/
def displayEntries : List (Value × Value) → List String
  | [] => []
  | (key, value) :: rest => (display key ++ ": " ++ display value) :: displayEntries rest

end

/-- A value as it is written into a message: a text as it stands, everything else displayed. -/
def plainDisplay : Value → String
  | .text s => s
  | v => v.display

end Value

end TextTemplate
