import TextTemplate.StaticGroup

/-!
# Sessions

A session keeps groups, static groups and templates under names, together with the settings in
force.  Templates taken from one group share it: every group that enters a session is given a
number, and a template keeps the number of its group.
-/

namespace TextTemplate

/-- The version of the library. -/
def version : String := "0.1.0"

/-- Something that a session keeps under a name. -/
inductive Session.Item where
  | group (number : Nat) (g : Group)
  | staticGroup (number : Nat) (s : StaticGroup)
  | template (groupNumber : Nat) (t : Template)

/-- Items under names, and the settings in force. -/
structure Session where
  items : List (String × Session.Item)
  settings : Settings
  /-- The number of the next group. -/
  nextNumber : Nat

namespace Session

/-- The session in which nothing has happened. -/
def start : Session := ⟨[], {}, 0⟩

instance : Inhabited Session := ⟨start⟩

/-- The item under a name. -/
def find? (session : Session) (name : String) : Option Item := session.items.lookup name

/-- Puts an item under a name. -/
def put (session : Session) (name : String) (item : Item) : Session :=
  { session with items := Entries.put name item session.items }

/-- Puts a group that is new to the session under a name. -/
def putGroup (session : Session) (name : String) (g : Group) : Session :=
  { session with nextNumber := session.nextNumber + 1 }.put name (.group session.nextNumber g)

/-- Puts a static group that is new to the session under a name. -/
def putStaticGroup (session : Session) (name : String) (s : StaticGroup) : Session :=
  { session with nextNumber := session.nextNumber + 1 }.put name
    (.staticGroup session.nextNumber s)

/-- Puts a template that belongs to no group so far under a name: it is given an empty group of its
own. -/
def putSingle (session : Session) (name : String) (definition : Definition) : Session :=
  { session with nextNumber := session.nextNumber + 1 }.put name
    (.template session.nextNumber ⟨definition, Group.empty, ∅⟩)

/-- The item as a value of an attribute, as it is at this moment. -/
def Item.toValue : Item → Value
  | .group _ _ => .group
  | .staticGroup _ _ => .staticGroup
  | .template _ t => t.toValue

/-- The number of the group of an item. -/
def Item.groupNumber : Item → Nat
  | .group number _ | .staticGroup number _ | .template number _ => number

/-- Uses a static group that is kept under a name, which may compile it. -/
def use (session : Session) (name : String) (number : Nat) (s : StaticGroup)
    (use : StaticGroup.Use) : StaticGroup.Answer × Session :=
  (s.answer StaticGroup.privateMembers use,
    session.put name (.staticGroup number (s.after StaticGroup.privateMembers use)))

/-- Puts settings in force. -/
def configure (session : Session) (settings : Settings) : Session :=
  { session with settings := settings }

end Session

end TextTemplate
