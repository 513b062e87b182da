import TextTemplate.Entries
import TextTemplate.Decimal.Binary64

/-!
# Values

Attributes are given as host values of any kind.  Those that become data are trees of null,
truth values, numbers, texts, lists and maps; tuples, sets and bytes are turned into such trees;
templates, groups, contexts and foreign objects have no such form of their own.

Values are equal when they hold the same data: truth values are the numbers 0 and 1, integers and
floating point numbers are compared exactly, and the order of the entries of a map does not
matter.
-/

namespace TextTemplate

/-- A value handed in from outside, or the data of an attribute. -/
inductive Value where
  | null
  | bool (b : Bool)
  | int (n : Int)
  | float (x : Binary64)
  | text (s : String)
  | list (items : List Value)
  | map (entries : List (Value × Value))
  | tuple (items : List Value)
  | set (items : List Value)
  | bytes (data : List UInt8)
  /-- A template, with the data of its attributes. -/
  | template (attributes : List (String × Value))
  | staticGroup
  | group
  /-- A context, with what it holds, which need not be data. -/
  | context (held : Value)
  /-- An object of another type, told from the others of that type by its number. -/
  | foreign (typeName : String) (number : Nat)

namespace Value

instance : Inhabited Value := ⟨null⟩

/-- The name of the value's type in messages. -/
def typeName : Value → String
  | .null => "NoneType"
  | .bool _ => "bool"
  | .int _ => "int"
  | .float _ => "float"
  | .text _ => "str"
  | .list _ => "list"
  | .map _ => "dict"
  | .tuple _ => "tuple"
  | .set _ => "set"
  | .bytes _ => "bytes"
  | .template _ => "Template"
  | .staticGroup => "StaticGroup"
  | .group => "Group"
  | .context _ => "Context"
  | .foreign typeName _ => typeName

/-- Whether the value is null. -/
def isNull : Value → Bool
  | .null => true
  | _ => false

/-- The integer that a truth value or an integer counts as. -/
def integer? : Value → Option Int
  | .bool b => some (if b then 1 else 0)
  | .int n => some n
  | _ => none

/-- Equality of numbers, compared exactly. -/
def equalNumbers : Value → Value → Bool
  | .float x, .float y => x.equals y
  | .float x, w => w.integer?.any x.equalsInt
  | v, .float y => v.integer?.any y.equalsInt
  | v, w => v.integer?.any fun n => w.integer? == some n

mutual

/-- Equality of values as data. -/
def equal : Value → Value → Bool
  | .null, .null => true
  | .text s, .text t => s == t
  | .bytes a, .bytes b => a == b
  | .list a, .list b => equalItems a b
  | .tuple a, .tuple b => equalItems a b
  | .set a, .set b => equalItems a b
  | .map a, .map b => a.length == b.length && includesEntries a b
  | .context v, .context w => equal v w
  | v, w => equalNumbers v w

/-- Equality of items in order. -/
def equalItems : List Value → List Value → Bool
  | [], [] => true
  | v :: a, w :: b => equal v w && equalItems a b
  | _, _ => false

/-- Whether every entry is also an entry of the other list. -/
def includesEntries : List (Value × Value) → List (Value × Value) → Bool
  | [], _ => true
  | (key, value) :: rest, b =>
    (b.any fun entry => equal key entry.1 && equal value entry.2) && includesEntries rest b

end

/-- Keys of maps are found by equality of values. -/
instance : BEq Value := ⟨equal⟩

/-- The map that results from putting entries one after the other. -/
def ofEntries (entries : List (Value × Value)) : Value := .map (Entries.ofList entries)

/-- The map of attributes. -/
def ofAttributes (attributes : List (String × Value)) : Value :=
  .map (attributes.map fun (name, value) => (.text name, value))

end Value

end TextTemplate
