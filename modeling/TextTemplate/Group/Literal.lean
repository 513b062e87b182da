import TextTemplate.Fault

/-!
# String literals

A template body is written as one of three literals.  Each reader takes the characters after the
opening delimiter and the index of the first of them, and answers the content of the literal:
every decoded character with the index at which it is spelt, and the index of the closing
delimiter.

* `Quoted.read`: between quotes, with escapes, over any number of lines;
* `Raw.read`: up to a quote that is followed by the right number of number signs, undecoded;
* `Angle.read`: up to the first `>>` outside an expression `<...>`, undecoded.
-/

namespace TextTemplate

namespace Group

/-- What a literal stands for: its characters, each with the index at which it is spelt, and the
index of its closing delimiter. -/
structure Content where
  characters : List (Char × Nat)
  close : Nat
deriving DecidableEq, Repr

namespace Content

/-- The content with one more character in front. -/
def cons (c : Char) (index : Nat) (content : Content) : Content :=
  ⟨(c, index) :: content.characters, content.close⟩

/-- The decoded text. -/
def value (content : Content) : List Char := content.characters.map Prod.fst

/-- The index of each character, then that of the closing delimiter. -/
def offsets (content : Content) : List Nat := content.characters.map Prod.snd ++ [content.close]

end Content

/-! ### Quoted literals -/

namespace Quoted

/-- The character named by a one-letter escape. -/
def escapeLetter? : Char → Option Char
  | 'n' => some '\n'
  | 't' => some '\t'
  | 'r' => some '\r'
  | '0' => some '\x00'
  | '\\' => some '\\'
  | '"' => some '"'
  | '\'' => some '\''
  | _ => none

/-- The characters that a line continuation skips: space, tab, carriage return and end of line. -/
def isContinuationBlank (c : Char) : Bool := c == ' ' || c == '\t' || c == '\r' || c == '\n'

/-- The value of a hexadecimal digit of either case. -/
def hexDigit? (c : Char) : Option Nat :=
  if '0' ≤ c ∧ c ≤ '9' then some (c.toNat - '0'.toNat)
  else if 'a' ≤ c ∧ c ≤ 'f' then some (c.toNat - 'a'.toNat + 10)
  else if 'A' ≤ c ∧ c ≤ 'F' then some (c.toNat - 'A'.toNat + 10)
  else none

/-- Whether `c` is a hexadecimal digit of either case. -/
def isHexDigit (c : Char) : Bool := (hexDigit? c).isSome

/-- The number spelt by hexadecimal digits. -/
def hexValue (digits : List Char) : Nat :=
  digits.foldl (fun n c => 16 * n + (hexDigit? c).getD 0) 0

/-- The Unicode scalar value with the given code point: there is none for a surrogate or beyond
`U+10FFFF`. -/
def scalar? (codePoint : Nat) : Option Char :=
  if codePoint.isValidChar then some (Char.ofNat codePoint) else none

/-- One spelling of a quoted literal, with the number of characters it takes. -/
inductive Spelling where
  /-- A character. -/
  | character (c : Char) (width : Nat)
  /-- A line continuation, which stands for nothing. -/
  | continuation (width : Nat)
deriving DecidableEq, Repr

/-- A misspelling, with the number of characters to blame. -/
structure Misspelling where
  problem : Problem
  width : Nat
deriving DecidableEq, Repr

/-- Reads what follows the letter `u` of an escape: one to six hexadecimal digits in braces. -/
def readUnicodeEscape (rest : List Char) : Except Misspelling Spelling :=
  let digits := (rest.drop 1).takeWhile isHexDigit
  let braced := rest.head? = some '{' ∧ (rest.drop (1 + digits.length)).head? = some '}'
  if braced ∧ 1 ≤ digits.length ∧ digits.length ≤ 6 then
    match scalar? (hexValue digits) with
    | some c => .ok (.character c (digits.length + 4))
    | none => .error ⟨.invalidUnicodeEscape, digits.length + 4⟩
  else .error ⟨.invalidUnicodeEscape, 2⟩

/-- Reads what follows the letter `x` of an escape: two hexadecimal digits up to `7F`. -/
def readByteEscape : List Char → Except Misspelling Spelling
  | a :: b :: _ =>
    if '0' ≤ a ∧ a ≤ '7' ∧ isHexDigit b then .ok (.character (Char.ofNat (hexValue [a, b])) 4)
    else .error ⟨.unknownEscape, 2⟩
  | _ => .error ⟨.unknownEscape, 2⟩

/-- Reads what follows a backslash. -/
def readEscape : List Char → Except Misspelling Spelling
  | [] => .error ⟨.unknownEscape, 1⟩
  | e :: rest =>
    match escapeLetter? e with
    | some c => .ok (.character c 2)
    | none =>
      if e = '\n' then .ok (.continuation (2 + (rest.takeWhile isContinuationBlank).length))
      else if e = 'x' then readByteEscape rest
      else if e = 'u' then readUnicodeEscape rest
      else .error ⟨.unknownEscape, 2⟩

/-- Reads the spelling that starts with `c`. -/
def readSpelling (c : Char) (rest : List Char) : Except Misspelling Spelling :=
  if c = '\\' then readEscape rest else .ok (.character c 1)

/-- Reads the content of a quoted literal that was opened at index `start`. -/
def read (start index : Nat) : List Char → Except Fault Content
  | [] => .error ⟨.unterminatedString, ⟨start, index⟩⟩
  | c :: rest =>
    if c = '"' then .ok ⟨[], index⟩
    else
      match readSpelling c rest with
      | .error e => .error ⟨e.problem, ⟨index, index + e.width⟩⟩
      | .ok (.character d width) =>
        (read start (index + width) (rest.drop (width - 1))).map (Content.cons d index)
      | .ok (.continuation width) => read start (index + width) (rest.drop (width - 1))
termination_by text => text.length
decreasing_by all_goals simp only [List.length_drop, List.length_cons]; omega

end Quoted

/-! ### Undecoded literals -/

namespace Raw

/-- Reads the content of a raw literal that was opened at index `start` with `hashes` number
signs. -/
def read (hashes start index : Nat) : List Char → Except Fault Content
  | [] => .error ⟨.unterminatedRawString, ⟨start, index⟩⟩
  | c :: rest =>
    if c = '"' ∧ rest.take hashes = List.replicate hashes '#' then .ok ⟨[], index⟩
    else (read hashes start (index + 1) rest).map (Content.cons c index)

/-- The number of number signs in an opening `r"`, `r#"`, `r##"` and so on. -/
def opening? : List Char → Option Nat
  | 'r' :: rest =>
    let hashes := (rest.takeWhile (· == '#')).length
    if (rest.drop hashes).head? = some '"' then some hashes else none
  | _ => none

end Raw

namespace Angle

/-- Reads the content of a `<<` body that was opened at index `start`; `inExpression` tells whether
an expression is open. -/
def read (start : Nat) (inExpression : Bool) (index : Nat) : List Char → Except Fault Content
  | [] => .error ⟨.unterminatedBody, ⟨start, start + 2⟩⟩
  | c :: rest =>
    if inExpression = false ∧ c = '>' ∧ rest.head? = some '>' then .ok ⟨[], index⟩
    else
      let inside := if c = '<' then true else if c = '>' then false else inExpression
      (read start inside (index + 1) rest).map (Content.cons c index)

end Angle

end Group

end TextTemplate
