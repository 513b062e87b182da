import TextTemplate.Decimal.Layout
import TextTemplate.Value.Host

/-!
# The standard host

`Host.standard` dumps values as data: null, truth values, integers, finite floating point numbers,
texts, lists, and maps whose keys are texts.

* Infinite and undefined numbers become null, bytes become the text they encode, tuples and sets
  become lists.
* A key becomes a text; of two keys with the same text the later value wins.
* Nothing may be enclosed by `depthLimit` or more containers.
* Templates, groups, contexts and foreign objects have no data inside a value.

The first problem met, depth first and from left to right, is the one reported.
-/

namespace TextTemplate

namespace Value

/-- The number of containers around a value from which on it is too deep. -/
def depthLimit : Nat := 255

/-- The text that bytes encode in UTF-8. -/
def decode (data : List UInt8) : Except DataProblem String :=
  match String.fromUTF8? ⟨data.toArray⟩ with
  | some s => .ok s
  | none => .error .undecodable

/-! ### Keys -/

/-- The format of floating point numbers as keys, and where values are displayed. -/
def displayLayout : Layout := ⟨-4, 16, ['+'], 2⟩

/-- The text of null as a key. -/
def nullKey : String := "None"

mutual

/-- The text of a key. -/
def keyText : Value → Except DataProblem String
  | .null => .ok nullKey
  | .bool b => .ok (if b then "true" else "false")
  | .int n => .ok (toString n)
  | .float x => .ok (if x.isFinite then String.ofList (displayLayout.finite x) else nullKey)
  | .text s => .ok s
  | .bytes data => decode data
  | .tuple items => (keyTexts items).map (String.intercalate ",")
  | _ => .error .unsupported

/-- The texts of the items of a key. -/
def keyTexts : List Value → Except DataProblem (List String)
  | [] => .ok []
  | item :: rest =>
    match keyText item with
    | .error e => .error e
    | .ok s => (keyTexts rest).map (s :: ·)

end

/-! ### Trees -/

mutual

/-- The data of a value that is enclosed by `depth` containers. -/
def dataAt (depth : Nat) (v : Value) : Except DataProblem Value :=
  if depthLimit ≤ depth then .error .tooDeep
  else
    match v with
    | .null => .ok .null
    | .bool b => .ok (.bool b)
    | .int n => .ok (.int n)
    | .float x => .ok (if x.isFinite then .float x else .null)
    | .text s => .ok (.text s)
    | .bytes data => (decode data).map .text
    | .list items => (dataItems (depth + 1) items).map .list
    | .tuple items => (dataItems (depth + 1) items).map .list
    | .set items => (dataItems (depth + 1) items).map .list
    | .map entries => (dataEntries (depth + 1) [] entries).map fun data =>
        .map (data.map fun (key, value) => (.text key, value))
    | .template _ | .staticGroup | .group | .context _ | .foreign _ _ => .error .unsupported

/-- The data of items that are enclosed by `depth` containers. -/
def dataItems (depth : Nat) : List Value → Except DataProblem (List Value)
  | [] => .ok []
  | item :: rest =>
    match dataAt depth item with
    | .error e => .error e
    | .ok v => (dataItems depth rest).map (v :: ·)

/-- The data of the entries of a map whose values are enclosed by `depth` containers, put one after
the other into `data`. -/
def dataEntries (depth : Nat) (data : List (String × Value)) :
    List (Value × Value) → Except DataProblem (List (String × Value))
  | [] => .ok data
  | (key, value) :: rest =>
    match keyText key with
    | .error e => .error e
    | .ok key =>
      match dataAt depth value with
      | .error e => .error e
      | .ok value => dataEntries depth (Entries.put key value data) rest

end

end Value

/-- The host whose objects have no data, and are not copied. -/
def Host.standard : Host where
  dump v := (Value.dataAt 0 v).mapError .problem
  form? _ _ := none
  copyObject v := .ok v

end TextTemplate
