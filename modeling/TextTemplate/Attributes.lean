import TextTemplate.Value.Access

/-!
# Attributes

The attributes of a template are data under names, in the order in which the names were first
used.  Inserting data under a name that is in use accumulates it.

Every insertion has data of its own, in a context of its own: nothing outside sees them change, nor
do they change from outside.
-/

namespace TextTemplate

/-- Data under names. -/
structure Attributes where
  entries : List (String × Value)

namespace Attributes

/-- No attributes. -/
def empty : Attributes := ⟨[]⟩

instance : EmptyCollection Attributes := ⟨empty⟩

instance : Inhabited Attributes := ⟨empty⟩

/-- The data under a name. -/
def get? (attributes : Attributes) (name : String) : Option Value :=
  attributes.entries.lookup name

/-- Whether there is data under a name. -/
def contains (attributes : Attributes) (name : String) : Bool := (attributes.get? name).isSome

/-- The names in the order of their first use. -/
def names (attributes : Attributes) : List String := Entries.keys attributes.entries

/-- The number of names. -/
def size (attributes : Attributes) : Nat := attributes.entries.length

/-- Adds data under a name to what is there.  No other insertion is given the same context. -/
def insert (name : String) (data : Value) (attributes : Attributes) : Attributes :=
  let total :=
    match attributes.get? name with
    | none => data
    | some old => old.accumulate data
  ⟨Entries.put name total attributes.entries⟩

/-- The map of all attributes. -/
def toValue (attributes : Attributes) : Value := Value.ofAttributes attributes.entries

end Attributes

end TextTemplate
