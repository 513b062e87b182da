import TextTemplate.Settings.Document.Scalar
import TextTemplate.Settings.Document.Text

/-!
# Nodes of a document

A node is a scalar, a list or a map.  Lists and maps are written in brackets, or as blocks: the
items of a list after dashes, the entries of a map after keys, all in one column.  A map does not
hold two equal keys.  The fuel of the readers bounds the number of nodes; every node takes at least
one character, so the length of the document is enough of it.
-/

namespace TextTemplate

namespace Document

/-- A value that was read, and the cursor at the next thing. -/
structure Read where
  value : Value
  cursor : Cursor

/-- The map with one more entry, unless it has an equal key. -/
def addEntry (key value : Value) (entries : List (Value × Value)) :
    Option (List (Value × Value)) :=
  if entries.any fun entry => key == entry.1 then none else some (entries ++ [(key, value)])

/-- Reads a scalar, quoted or plain. -/
def scalar (inFlow : Bool) (least : Nat) (cursor : Cursor) : Option (Value × ScalarText) :=
  let fuel := cursor.rest.length + 1
  match cursor.rest with
  | [] => none
  | c :: rest =>
    if c = '"' ∨ c = '\'' then
      (quoted c fuel (cursor.column + 1) rest).map fun t => (.text (String.ofList t.text), t)
    else if startsPlain inFlow cursor.rest then
      let t := plain inFlow least fuel cursor
      if inFlow ∧ atBareColon t.cursor.rest then none else (resolve t.text).map fun v => (v, t)
    else none

/-! ### Collections in brackets -/

mutual

/-- Reads a node inside brackets. -/
def flowNode : Nat → Cursor → Option Read
  | 0, _ => none
  | fuel + 1, cursor =>
    if cursor.column = 0 ∧ atMarker cursor.rest then none
    else
      match cursor.rest.head? with
      | some '[' => flowItems fuel [] (cursor.advance 1).skipInFlow
      | some '{' => flowEntries fuel [] (cursor.advance 1).skipInFlow
      | _ => (scalar true 0 cursor).map fun (v, t) => ⟨v, t.cursor⟩

/-- Reads the value of an entry from its colon on; without a colon or a value it is null. -/
def flowValue : Nat → Cursor → Option Read
  | 0, _ => none
  | fuel + 1, cursor =>
    if cursor.rest.head? = some ':' then
      let inside := (cursor.advance 1).skipInFlow
      match inside.rest.head? with
      | some ',' | some ']' | some '}' => some ⟨.null, inside⟩
      | _ => flowNode fuel inside
    else some ⟨.null, cursor⟩

/-- Reads the remaining items of a list in brackets.  An item with a colon is a map of one
entry. -/
def flowItems : Nat → List Value → Cursor → Option Read
  | 0, _, _ => none
  | fuel + 1, items, cursor =>
    if cursor.rest.head? = some ']' then some ⟨.list items, cursor.advance 1⟩
    else do
      let first ← flowNode fuel cursor
      let next := first.cursor.skipInFlow
      let value ← flowValue fuel next
      let item := if next.rest.head? = some ':' then .map [(first.value, value.value)] else first.value
      let next := value.cursor.skipInFlow
      match next.rest.head? with
      | some ',' => flowItems fuel (items ++ [item]) (next.advance 1).skipInFlow
      | some ']' => some ⟨.list (items ++ [item]), next.advance 1⟩
      | _ => none

/-- Reads the remaining entries of a map in braces. -/
def flowEntries : Nat → List (Value × Value) → Cursor → Option Read
  | 0, _, _ => none
  | fuel + 1, entries, cursor =>
    if cursor.rest.head? = some '}' then some ⟨.map entries, cursor.advance 1⟩
    else do
      let key ← flowNode fuel cursor
      let value ← flowValue fuel key.cursor.skipInFlow
      let entries ← addEntry key.value value.value entries
      let next := value.cursor.skipInFlow
      match next.rest.head? with
      | some ',' => flowEntries fuel entries (next.advance 1).skipInFlow
      | some '}' => some ⟨.map entries, next.advance 1⟩
      | _ => none

end

/-! ### Blocks -/

mutual

/-- Reads a node of a block whose lines stand in column `least` or to the right of it; where
nothing stands there it is null. -/
def blockNode : Nat → Nat → Cursor → Option Read
  | 0, _, _ => none
  | fuel + 1, least, cursor =>
    if cursor.atEnd ∨ cursor.column < least then some ⟨.null, cursor⟩
    else if cursor.atItem then
      if cursor.isFresh then blockItems fuel cursor.column [] cursor else none
    else if cursor.rest.head? = some '[' ∨ cursor.rest.head? = some '{' then
      match flowNode fuel cursor with
      | some inner =>
        if inner.cursor.skipWhite.atColon then none else some ⟨inner.value, inner.cursor.skip⟩
      | none => none
    else
      match scalar false least cursor with
      | some (value, t) =>
        let after := t.cursor.skipWhite
        if after.atColon = false then some ⟨value, t.cursor.skip⟩
        else if cursor.isFresh ∧ t.isOneLine then
          blockEntries fuel cursor.column [] value (after.advance 1).skip
        else none
      | none => none

/-- Reads the items of a list whose dashes stand in the given column, at a dash. -/
def blockItems : Nat → Nat → List Value → Cursor → Option Read
  | 0, _, _, _ => none
  | fuel + 1, column, items, cursor => do
    let inside : Cursor := ⟨cursor.rest.drop 1, cursor.column + 1, true⟩
    let item ← blockNode fuel (column + 1) inside.skip
    let items := items ++ [item.value]
    let next := item.cursor
    if next.atEnd then some ⟨.list items, next⟩
    else if next.isFresh = false then none
    else if next.column = column ∧ next.atItem then blockItems fuel column items next
    else some ⟨.list items, next⟩

/-- Reads the entries of a map whose keys stand in the given column, from the value of `key` on. -/
def blockEntries : Nat → Nat → List (Value × Value) → Value → Cursor → Option Read
  | 0, _, _, _, _ => none
  | fuel + 1, column, entries, key, cursor => do
    let value ←
      if cursor.isFresh ∧ cursor.column = column ∧ cursor.atItem then
        blockItems fuel column [] cursor
      else blockNode fuel (column + 1) cursor
    let entries ← addEntry key value.value entries
    let next := value.cursor
    if next.atEnd then some ⟨.map entries, next⟩
    else if next.isFresh = false ∨ column < next.column then none
    else if next.column < column then some ⟨.map entries, next⟩
    else
      let (key, t) ← scalar false (column + 1) next
      let after := t.cursor.skipWhite
      if after.atColon ∧ t.isOneLine then
        blockEntries fuel column entries key (after.advance 1).skip
      else none

end

end Document

end TextTemplate
