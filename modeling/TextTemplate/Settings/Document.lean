import TextTemplate.Settings.Document.Node

/-!
# Documents

A settings file holds at most one document: a node, after an optional `---` and before an optional
`...`, which does not come first.  A file without a node holds null.  The first line may state the
version of the format, in which case `---` has to follow.
-/

namespace TextTemplate

namespace Document

/-- Whether a character may stand in a document. -/
def isAllowed (c : Char) : Bool :=
  let n := c.toNat
  c == '\t' || c == '\n' || c == '\r' || (0x20 ≤ n && n ≤ 0x7E) || n == 0x85 ||
    (0xA0 ≤ n && n ≤ 0xD7FF) || (0xE000 ≤ n && n ≤ 0xFFFD) || 0x10000 ≤ n

/-- The characters to read: a byte order mark in front is left out, and `U+0085` ends a line. -/
def prepared (characters : List Char) : List Char :=
  (if characters.head? = some '\ufeff' then characters.drop 1 else characters).map fun c =>
    if c = '\u0085' then '\n' else c

/-- Whether nothing but marks that end a document is left.  The fuel bounds their number. -/
def onlyEnds : Nat → Cursor → Bool
  | 0, _ => false
  | fuel + 1, cursor =>
    if cursor.rest.isEmpty then true
    else if cursor.column = 0 ∧ atMarker cursor.rest ∧ cursor.rest.head? = some '.' then
      let next := (cursor.advance 3).skip
      (next.rest.isEmpty || next.isFresh) && onlyEnds fuel next
    else false

/-- Reads the node of a document, which nothing may follow. -/
def readNode (cursor : Cursor) : Option Value :=
  let fuel := 4 * (cursor.rest.length + 2)
  match blockNode fuel 0 cursor with
  | some read => if onlyEnds fuel read.cursor then some read.value else none
  | none => none

/-- The cursor behind the line that states the version, or at the start where there is none. -/
def behindVersion (text : List Char) : Option Cursor :=
  let start := skipFrom false false 0 true text
  if start.rest.head? = some '%' ∧ start.column = 0 then
    if start.rest.take 9 = "%YAML 1.2".toList ∧ atWordEnd (start.rest.drop 9) then
      let next := (start.advance 9).skip
      if next.column = 0 ∧ atMarker next.rest ∧ next.rest.head? = some '-' then some next
      else none
    else none
  else some start

/-- The value of the document that a text holds, or `none` if the text holds no document. -/
def read (text : String) : Option Value :=
  let characters := text.toList
  if characters.all isAllowed then
    match behindVersion (prepared characters) with
    | none => none
    | some start =>
      if start.column = 0 ∧ atMarker start.rest then
        if start.rest.head? = some '-' then readNode (start.advance 3).skip else none
      else readNode start
  else none

end Document

end TextTemplate
