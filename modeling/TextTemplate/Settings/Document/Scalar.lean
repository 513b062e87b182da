import TextTemplate.Value.Basic

/-!
# Plain scalars

A scalar that is written without quotes stands for null, a truth value, a number or a text, as its
spelling says.  Numbers may hold low lines between their digits.  Integers are decimal, or binary,
octal or hexadecimal after `0b`, `0o` or `0x`; leading zeros mean nothing.
-/

namespace TextTemplate

namespace Document

/-- The spellings of null. -/
def nullWords : List String := ["", "~", "null", "Null", "NULL"]

/-- The spellings of the truth values. -/
def truthWords : List (String × Bool) :=
  [("true", true), ("True", true), ("TRUE", true), ("false", false), ("False", false),
    ("FALSE", false)]

/-- The spellings that stand for something other than a scalar. -/
def specialWords : List String := ["<<", "="]

/-- The sign of a number, and what follows it. -/
def splitSign : List Char → Bool × List Char
  | '-' :: rest => (true, rest)
  | '+' :: rest => (false, rest)
  | rest => (false, rest)

/-- The value of a digit of at most sixteen. -/
def digitValue (c : Char) : Nat :=
  if c.isDigit then c.toNat - '0'.toNat
  else if c.isLower then c.toNat - 'a'.toNat + 10
  else c.toNat - 'A'.toNat + 10

/-- The digits without low lines. -/
def bareDigits (digits : List Char) : List Char := digits.filter (· != '_')

/-- The number that digits spell in a base. -/
def numberIn (base : Nat) (digits : List Char) : Nat :=
  (bareDigits digits).foldl (fun n c => base * n + digitValue c) 0

/-- Whether the text is one or more digits, at least one of them no low line. -/
def areDigits (isDigit : Char → Bool) (digits : List Char) : Bool :=
  digits.all (fun c => isDigit c || c == '_') && digits.any isDigit

/-- Whether `c` is a digit of the given base, of either case. -/
def isDigitIn (base : Nat) (c : Char) : Bool :=
  (c.isDigit || ('a' ≤ c && c ≤ 'f') || ('A' ≤ c && c ≤ 'F')) && digitValue c < base

/-- The value of an unsigned integer. -/
def natural? : List Char → Option Nat
  | '0' :: 'b' :: digits =>
    if areDigits (isDigitIn 2) digits then some (numberIn 2 digits) else none
  | '0' :: 'o' :: digits =>
    if areDigits (isDigitIn 8) digits then some (numberIn 8 digits) else none
  | '0' :: 'x' :: digits =>
    if areDigits (isDigitIn 16) digits then some (numberIn 16 digits) else none
  | digits => if areDigits Char.isDigit digits then some (numberIn 10 digits) else none

/-- The value of an integer, which starts with a sign or a digit. -/
def integer? (text : List Char) : Option Int :=
  let (isNegative, rest) := splitSign text
  if text.head? = some '_' then none
  else (natural? rest).map fun n => if isNegative then -(n : Int) else n

/-- The floating point number nearest to `m * 10 ^ e`. -/
def nearest (m : Nat) (e : Int) : Binary64 :=
  let size := (Nat.toDigits 10 m).length + e
  if m = 0 ∨ size < -330 then ⟨0⟩
  else if 310 < size then ⟨0x7FF0000000000000⟩
  else ⟨(Float.ofScientific m (e < 0) e.natAbs).toBits⟩

/-- The floating point number with the sign bit set. -/
def negated (x : Binary64) : Binary64 := ⟨x.bits ^^^ 0x8000000000000000⟩

/-- The value of an exponent part, zero where there is none; its sign may be required. -/
def exponent? (signRequired : Bool) : List Char → Option Int
  | [] => some 0
  | c :: rest =>
    let (isNegative, digits) := splitSign rest
    let signed := rest.head? = some '-' ∨ rest.head? = some '+'
    if (c = 'e' ∨ c = 'E') ∧ (signRequired = false ∨ signed) ∧ digits ≠ [] ∧
        digits.all Char.isDigit then
      some (if isNegative then -(numberIn 10 digits : Int) else numberIn 10 digits)
    else none

/-- Whether `c` is a digit or a low line. -/
def isDigitOrLine (c : Char) : Bool := c.isDigit || c == '_'

/-- The value of an unsigned number with a point or an exponent. -/
def unsignedFloat? (text : List Char) : Option Binary64 :=
  let whole := text.takeWhile isDigitOrLine
  let rest := text.drop whole.length
  let startsWithDigit := whole.head?.any Char.isDigit
  match rest with
  | '.' :: rest =>
    let fraction := rest.takeWhile isDigitOrLine
    let digits := bareDigits (whole ++ fraction)
    if startsWithDigit ∨ whole = [] ∧ fraction.any Char.isDigit then
      (exponent? (! startsWithDigit) (rest.drop fraction.length)).map fun e =>
        nearest (numberIn 10 digits) (e - (bareDigits fraction).length)
    else none
  | 'e' :: _ | 'E' :: _ =>
    if startsWithDigit then (exponent? false rest).map (nearest (numberIn 10 whole)) else none
  | _ => none

/-- The value of a floating point number. -/
def float? (text : List Char) : Option Binary64 :=
  let (isNegative, rest) := splitSign text
  let word := String.ofList rest
  if [".inf", ".Inf", ".INF"].contains word then
    some (if isNegative then negated ⟨0x7FF0000000000000⟩ else ⟨0x7FF0000000000000⟩)
  else if [".nan", ".NaN", ".NAN"].contains (String.ofList text) then some ⟨0x7FF8000000000000⟩
  else (unsignedFloat? rest).map fun x => if isNegative then negated x else x

/-- The value of a plain scalar, or `none` where its spelling stands for no scalar. -/
def resolve (text : List Char) : Option Value :=
  let word := String.ofList text
  if nullWords.contains word then some .null
  else if specialWords.contains word then none
  else
    match truthWords.lookup word with
    | some b => some (.bool b)
    | none =>
      match float? text, integer? text with
      | some x, _ => some (.float x)
      | none, some n => some (.int n)
      | none, none => some (.text word)

end Document

end TextTemplate
