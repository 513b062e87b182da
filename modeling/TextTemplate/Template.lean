import TextTemplate.Compile
import TextTemplate.Rendering
import TextTemplate.Value.Display

/-!
# Groups and templates

A group gives out templates by name.  A template is a definition ready to be filled: it has
attributes of its own and is rendered over the group it came from.
-/

namespace TextTemplate

/-- Template definitions by name, in the order of their declaration. -/
structure Group where
  definitions : Group.Definitions

/-- A definition with attributes, over a group. -/
structure Template where
  definition : Definition
  group : Group
  attributes : Attributes

namespace Group

/-- The group without templates. -/
def empty : Group := ⟨[]⟩

instance : Inhabited Group := ⟨empty⟩

/-- The names in the order of declaration. -/
def names (group : Group) : List String := Entries.keys group.definitions

/-- The number of templates. -/
def size (group : Group) : Nat := group.definitions.length

/-- Whether there is a template of this name. -/
def contains (group : Group) (name : String) : Bool := (group.definitions.lookup name).isSome

/-- A template of this name, without attributes. -/
def get? (group : Group) (name : String) : Option Template :=
  (group.definitions.lookup name).map (⟨·, group, ∅⟩)

/-- Texts as displayed in a list. -/
def displayNames (names : List String) : String := (Value.list (names.map .text)).display

/-- A group as displayed. -/
def display (group : Group) : String := "Group(" ++ displayNames group.names ++ ")"

end Group

/-- Compiles a group text. -/
def compileGroup (text : String) : Except CompileError Group :=
  (compileDefinitions text).map Group.mk

/-- The group of a static declaration. -/
def Group.StaticDeclaration.group (declaration : Group.StaticDeclaration) : Group :=
  ⟨declaration.definitions⟩

namespace Template

/-- Why a call of `add` fails. -/
inductive AddError where
  /-- The template declares parameters, and this name is not among them. -/
  | noSuchAttribute (name : String)
  /-- Nothing is taken over of the value. -/
  | value (e : HostError)
deriving DecidableEq, Repr

/-- The text of the failure, as shown to a user. -/
def AddError.message : AddError → String
  | .noSuchAttribute name => "no such attribute: " ++ name
  | .value e => e.message

/-- The template with more data under a name. -/
def insert (template : Template) (name : String) (data : Value) : Template :=
  { template with attributes := template.attributes.insert name data }

@[simp] theorem definition_insert (template : Template) (name : String) (data : Value) :
    (template.insert name data).definition = template.definition := rfl

@[simp] theorem group_insert (template : Template) (name : String) (data : Value) :
    (template.insert name data).group = template.group := rfl

@[simp] theorem attributes_insert (template : Template) (name : String) (data : Value) :
    (template.insert name data).attributes = template.attributes.insert name data := rfl

/-- Adds a value under a name. -/
def add (host : Host) (name : String) (value : Value) : EStateM AddError Template Unit := do
  let template ← get
  unless template.definition.accepts name do
    throw (.noSuchAttribute name)
  match host.data value with
  | .error e => throw (.value e)
  | .ok data => set (template.insert name data)

/-- The template that a call leaves, whether it succeeds or fails. -/
def leftBy {α : Type} : EStateM.Result AddError Template α → Template
  | .ok _ template | .error _ template => template

section

variable {host : Host} {template after : Template} {name : String} {value : Value}

/-- A call goes wrong for its name, whatever the value, or else for its value; it has changed the
template only where it does not. -/
theorem run_add (host : Host) (name : String) (value : Value) (template : Template) :
    (add host name value).run template =
      if template.definition.accepts name then
        match host.data value with
        | .error e => .error (.value e) template
        | .ok data => .ok () (template.insert name data)
      else .error (.noSuchAttribute name) template := by
  unfold add
  dsimp only [EStateM.run, bind, EStateM.bind, get, getThe, MonadStateOf.get, EStateM.get]
  split
  · cases host.data value <;> rfl
  · rfl

theorem run_add_eq_ok_iff : (add host name value).run template = .ok () after ↔
    template.definition.accepts name = true ∧ ∃ data, host.data value = .ok data ∧
      after = template.insert name data := by
  rw [run_add]
  cases template.definition.accepts name <;> cases host.data value <;> simp [eq_comm]

theorem run_add_eq_noSuchAttribute_iff {other : String} :
    (add host name value).run template = .error (.noSuchAttribute other) after ↔
      template.definition.accepts name = false ∧ name = other ∧ template = after := by
  rw [run_add]
  cases template.definition.accepts name <;> cases host.data value <;> simp

theorem run_add_eq_value_iff {e : HostError} :
    (add host name value).run template = .error (.value e) after ↔
      template.definition.accepts name = true ∧ host.data value = .error e ∧ template = after := by
  rw [run_add]
  cases template.definition.accepts name <;> cases host.data value <;> simp

/-- A call that fails leaves the template as it was. -/
theorem eq_of_run_add_eq_error {e : AddError}
    (h : (add host name value).run template = .error e after) : after = template := by
  cases e with
  | noSuchAttribute other => exact (run_add_eq_noSuchAttribute_iff.1 h).2.2.symm
  | value e => exact (run_add_eq_value_iff.1 h).2.2.symm

end

/-- The template with its attributes as a value. -/
def toValue (template : Template) : Value := .template template.attributes.entries

/-- Renders the template over its group. -/
def render (template : Template) (settings : Settings) : Outcome :=
  Rendering.render template.group.definitions settings.includeLimit? template.attributes
    template.definition.expressions

/-- Attributes as displayed. -/
def displayAttributes (attributes : Attributes) : String :=
  "Attributes(" ++ attributes.toValue.display ++ ")"

/-- A template as displayed. -/
def display (template : Template) : String :=
  "Template(" ++ Text.quoted template.definition.body ++ ", attributes=" ++
    displayAttributes template.attributes ++ ")"

end Template

end TextTemplate
