import TextTemplate.Settings.Document.Cursor

/-!
# Texts of scalars

A scalar may go over several lines.  A single end of line within it is read as a space, and of
several the first is left out; white space around them is left out, too.  The line separator and
the paragraph separator end lines but are never left out.  Between single quotes a quote is
written twice; between double quotes there are escapes.
-/

namespace TextTemplate

namespace Document

/-! ### Ends of lines -/

/-- The ends of lines and the white space at the front of a text: the ends of lines, the column
after them and the rest. -/
def breaks (column : Nat) : List Char → List Char × Nat × List Char
  | [] => ([], column, [])
  | c :: rest =>
    if isBreak c then
      let (ends, later) := breaks 0 rest
      (c :: ends, later)
    else if isWhite c then breaks (column + 1) rest
    else ([], column, c :: rest)

/-- What ends of lines are read as. -/
def folded : List Char → List Char
  | ['\n'] => [' ']
  | '\n' :: ends => ends
  | ends => ends

/-- The text without white space at its end. -/
def trimmed (text : List Char) : List Char := (text.reverse.dropWhile isWhite).reverse

/-! ### Plain scalars -/

/-- Whether `c` is a bracket or a comma. -/
def isFlowMark (c : Char) : Bool := [',', '[', ']', '{', '}'].contains c

/-- Whether a plain scalar may start with the given characters. -/
def startsPlain (inFlow : Bool) : List Char → Bool
  | [] => false
  | c :: rest =>
    if c = '-' then ! atWordEnd rest
    else if c = '?' ∨ c = ':' then ! inFlow && ! atWordEnd rest
    else
      ! (isWhite c || isBreak c || isFlowMark c ||
        ['#', '&', '*', '!', '|', '>', '\'', '"', '%', '@', '\x60'].contains c)

/-- Whether a colon stands here that a bracket, a comma or a question mark follows; inside brackets
it may not follow a plain scalar. -/
def atBareColon : List Char → Bool
  | ':' :: c :: _ => isFlowMark c || c == '?'
  | _ => false

/-- The length of the part of a plain scalar that stands on one line; `afterWhite` tells whether
white space precedes. -/
def plainLength (inFlow afterWhite : Bool) : List Char → Nat
  | [] => 0
  | c :: rest =>
    let endsAtColon := atWordEnd rest || (inFlow && atBareColon (c :: rest))
    if isBreak c ∨ c = '#' ∧ afterWhite ∨ c = ':' ∧ endsAtColon ∨ inFlow ∧ isFlowMark c then 0
    else 1 + plainLength inFlow (isWhite c) rest

/-- A scalar that was read: its text, whether it stands on one line, and the cursor behind it. -/
structure ScalarText where
  text : List Char
  isOneLine : Bool
  cursor : Cursor

/-- Reads a plain scalar whose further lines stand in column `least` or to the right of it.  The
fuel bounds the number of its lines. -/
def plain (inFlow : Bool) (least : Nat) : Nat → Cursor → ScalarText
  | 0, cursor => ⟨[], true, cursor⟩
  | fuel + 1, cursor =>
    let length := plainLength inFlow false cursor.rest
    let line := trimmed (cursor.rest.take length)
    let after := cursor.advance length
    let (ends, column, rest) := breaks after.column after.rest
    let continues :=
      ! ends.isEmpty && (inFlow || least ≤ column) && ! (column == 0 && atMarker rest) &&
        plainLength inFlow true rest != 0
    if continues then
      let later := plain inFlow least fuel ⟨rest, column, false⟩
      ⟨line ++ folded ends ++ later.text, false, later.cursor⟩
    else ⟨line, true, after⟩

/-! ### Quoted scalars -/

/-- The character of an escape with one letter. -/
def escapeLetter? : Char → Option Char
  | '0' => some '\x00'
  | 'a' => some '\x07'
  | 'b' => some '\x08'
  | 't' | '\t' => some '\t'
  | 'n' => some '\n'
  | 'v' => some '\x0b'
  | 'f' => some '\x0c'
  | 'r' => some '\r'
  | 'e' => some '\x1b'
  | ' ' => some ' '
  | '"' => some '"'
  | '/' => some '/'
  | '\\' => some '\\'
  | 'N' => some '\u0085'
  | '_' => some '\u00a0'
  | 'L' => some '\u2028'
  | 'P' => some '\u2029'
  | _ => none

/-- The number of hexadecimal digits that follow a letter in an escape. -/
def escapeWidth? : Char → Option Nat
  | 'x' => some 2
  | 'u' => some 4
  | 'U' => some 8
  | _ => none

/-- The value of a hexadecimal digit. -/
def hexDigit? (c : Char) : Option Nat :=
  if c.isDigit then some (c.toNat - '0'.toNat)
  else if 'a' ≤ c ∧ c ≤ 'f' then some (c.toNat - 'a'.toNat + 10)
  else if 'A' ≤ c ∧ c ≤ 'F' then some (c.toNat - 'A'.toNat + 10)
  else none

/-- The character whose code point hexadecimal digits spell. -/
def codePoint? (width : Nat) (digits : List Char) : Option Char := do
  let values ← digits.mapM hexDigit?
  let n := values.foldl (fun n d => 16 * n + d) 0
  if values.length = width ∧ n.isValidChar then some (Char.ofNat n) else none

/-- Reads the rest of a quoted scalar; `fuel` bounds the number of its pieces. -/
def quoted (quote : Char) : Nat → Nat → List Char → Option ScalarText
  | 0, _, _ => none
  | _ + 1, _, [] => none
  | fuel + 1, column, c :: rest =>
    let emit (d : Char) (width : Nat) : Option ScalarText :=
      (quoted quote fuel (column + width) (rest.drop (width - 1))).map fun later =>
        { later with text := d :: later.text }
    if c = quote then
      if quote = '\'' ∧ rest.head? = some '\'' then emit '\'' 2
      else some ⟨[], true, ⟨rest, column + 1, false⟩⟩
    else if c = '\\' ∧ quote = '"' then
      match rest with
      | [] => none
      | letter :: after =>
        if isBreak letter then
          let (ends, column, after) := breaks 0 after
          if column = 0 ∧ atMarker after then none
          else
            (quoted quote fuel column after).map fun later =>
              ⟨ends ++ later.text, false, later.cursor⟩
        else
          match escapeLetter? letter, escapeWidth? letter with
          | some d, _ => emit d 2
          | none, some width =>
            match codePoint? width (after.take width) with
            | some d => emit d (width + 2)
            | none => none
          | none, none => none
    else if isWhite c ∨ isBreak c then
      let (ends, column', after) := breaks column (c :: rest)
      if ends.isEmpty then emit c 1
      else if column' = 0 ∧ atMarker after then none
      else
        (quoted quote fuel column' after).map fun later =>
          ⟨folded ends ++ later.text, false, later.cursor⟩
    else emit c 1

end Document

end TextTemplate
