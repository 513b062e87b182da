/-!
# Places in a document

A document is read from left to right by a `Cursor`, which knows the column it stands in and
whether a block collection may start there: that is so where only spaces stand before it on its
line, and after the dash of an item.
-/

namespace TextTemplate

namespace Document

/-- A place in a document. -/
structure Cursor where
  /-- The characters from here on. -/
  rest : List Char
  column : Nat
  /-- Whether a block collection may start here. -/
  isFresh : Bool

/-- Whether `c` is a space or a tab. -/
def isWhite (c : Char) : Bool := c == ' ' || c == '\t'

/-- Whether `c` ends a line. -/
def isBreak (c : Char) : Bool := c == '\n' || c == '\u2028' || c == '\u2029'

/-- Whether a word ends before the given characters. -/
def atWordEnd (rest : List Char) : Bool :=
  match rest with
  | [] => true
  | c :: _ => isWhite c || isBreak c

/-- Whether the given characters start with a mark that ends the document before. -/
def atMarker (rest : List Char) : Bool :=
  (rest.take 3 = ['-', '-', '-'] ∨ rest.take 3 = ['.', '.', '.']) ∧ atWordEnd (rest.drop 3)

namespace Cursor

/-- The cursor behind the next `n` characters, all on one line. -/
def advance (cursor : Cursor) (n : Nat) : Cursor :=
  ⟨cursor.rest.drop n, cursor.column + n, false⟩

/-- Whether the document ends here: at the end of the text or at a mark. -/
def atEnd (cursor : Cursor) : Bool :=
  cursor.rest.isEmpty || (cursor.column == 0 && atMarker cursor.rest)

/-- Whether the dash of an item stands here. -/
def atItem (cursor : Cursor) : Bool :=
  cursor.rest.head? == some '-' && atWordEnd (cursor.rest.drop 1)

/-- Whether the colon of an entry stands here. -/
def atColon (cursor : Cursor) : Bool :=
  cursor.rest.head? == some ':' && atWordEnd (cursor.rest.drop 1)

end Cursor

/-- Skips white space, comments and ends of lines.  A tab is no white space where a block
collection may start. -/
def skipFrom (inFlow inComment : Bool) (column : Nat) (isFresh : Bool) : List Char → Cursor
  | [] => ⟨[], column, isFresh⟩
  | c :: rest =>
    if isBreak c then skipFrom inFlow false 0 (! inFlow) rest
    else if inComment then skipFrom inFlow true (column + 1) isFresh rest
    else if c = '#' then skipFrom inFlow true (column + 1) isFresh rest
    else if c = ' ' ∨ c = '\t' ∧ isFresh = false then skipFrom inFlow false (column + 1) isFresh rest
    else ⟨c :: rest, column, isFresh⟩

/-- The cursor behind the white space on its line. -/
def Cursor.skipWhite (cursor : Cursor) : Cursor :=
  cursor.advance (cursor.rest.takeWhile isWhite).length

/-- The cursor at the next thing of a block. -/
def Cursor.skip (cursor : Cursor) : Cursor :=
  skipFrom false false cursor.column cursor.isFresh cursor.rest

/-- The cursor at the next thing inside brackets. -/
def Cursor.skipInFlow (cursor : Cursor) : Cursor :=
  skipFrom true false cursor.column false cursor.rest

end Document

end TextTemplate
