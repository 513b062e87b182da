import TextTemplate.Template

/-!
# Static groups

A static group is a declaration `pub static ref name { ... }` that is compiled when it is first
needed, and once.  Each `Use` of it is answered as if it had been compiled from the start; a text
that does not compile is tried again at the next use.

Its templates are also its members.  The members that every static group has of its own come first,
and no template is reached under a name that starts with a low line: such names are kept for members
for its own use.  Which these are is left open; whoever looks at one of them, or asks whether the
static group has been compiled, looks inside it.
-/

namespace TextTemplate

/-- A static declaration that may not have been compiled yet. -/
structure StaticGroup where
  source : String
  declaration? : Option Group.StaticDeclaration

namespace StaticGroup

/-- A static group that has not been compiled. -/
def ofSource (source : String) : StaticGroup := ⟨source, none⟩

/-- A static group that is compiled at once. -/
def compile (source : String) : Except CompileError StaticGroup :=
  (compileStatic source).map fun declaration => ⟨source, some declaration⟩

/-- Whether the declaration has been compiled. -/
def isInitialized (s : StaticGroup) : Bool := s.declaration?.isSome

/-- The declaration, compiled now if it has not been. -/
def declaration (s : StaticGroup) : Except CompileError Group.StaticDeclaration :=
  match s.declaration? with
  | some declaration => .ok declaration
  | none => compileStatic s.source

/-- The static group after its declaration was needed. -/
def forced (s : StaticGroup) : StaticGroup :=
  match s.declaration with
  | .ok declaration => { s with declaration? := some declaration }
  | .error _ => s

/-! ### Members -/

/-- The member that tells whether the declaration has been compiled. -/
def initializedMember : String := "initialized"

/-- The members that every static group has; those with `true` need the declaration. -/
def ownMembers : List (String × Bool) :=
  [("get", false), ("group", true), ("name", true), ("public", true), (initializedMember, false),
    ("to_context_data", false)]

/-- The members for its own use that every static group has under names of its own. -/
def privateMembers : List String := ["_source", "_lock", "_declaration", "_group", "_ensure"]

/-- What a member is. -/
inductive Member where
  /-- A member that every static group has. -/
  | own
  /-- A member that shows what has been compiled so far. -/
  | inside (declaration? : Option Group.StaticDeclaration)
  /-- A declared template, without attributes. -/
  | template (t : Template)

/-- Why there is no such member. -/
inductive MemberError where
  /-- The declaration does not compile. -/
  | compile (e : CompileError)
  /-- No member has a name that starts with a low line. -/
  | hidden (name : String)
  /-- No template of this name is declared. -/
  | undeclared (name : String)

/-- The text of the failure, as shown to a user. -/
def MemberError.message : MemberError → String
  | .compile e => e.message
  | .hidden name => name
  | .undeclared name => "static group has no template '" ++ name ++ "'"

/-- Whether the declaration is needed to find the member. -/
def needsDeclaration (member : String) : Bool :=
  match ownMembers.lookup member with
  | some needed => needed
  | none => ! member.startsWith "_"

/-- The member of the given name. -/
def member (s : StaticGroup) (name : String) : Except MemberError Member :=
  if needsDeclaration name then
    match s.declaration with
    | .error e => .error (.compile e)
    | .ok declaration =>
      if (ownMembers.lookup name).isSome then .ok .own
      else
        match declaration.group.get? name with
        | some t => .ok (.template t)
        | none => .error (.undeclared name)
  else if name = initializedMember then .ok (.inside s.declaration?)
  else if (ownMembers.lookup name).isSome then .ok .own
  else .error (.hidden name)

/-- The member of the given name of a static group that has further members for its own use, which
need no declaration. -/
def access (internal : List String) (s : StaticGroup) (name : String) :
    Except MemberError Member :=
  if name ∈ internal then .ok (.inside s.declaration?) else s.member name

/-! ### Uses -/

/-- A use of a static group. -/
inductive Use where
  | get (name : String)
  | contains (name : String)
  | groupName
  | isPublic
  | wholeGroup
  | member (name : String)
  /-- The static group is given as the value of an attribute. -/
  | asValue

/-- What a use is answered. -/
inductive Answer where
  | template (t? : Option Template)
  | truth (b : Bool)
  | name (s : String)
  | group (g : Group)
  | member (result : Except MemberError Member)
  | refused (e : Value.DataError)
  | failed (e : CompileError)

/-- Whether the declaration is needed to answer the use. -/
def Use.needsDeclaration (internal : List String) : Use → Bool
  | .member name => ! internal.contains name && StaticGroup.needsDeclaration name
  | .asValue => false
  | _ => true

/-- Whether the use asks what has been compiled so far. -/
def Use.looksInside (internal : List String) : Use → Bool
  | .member name => internal.contains name || name == initializedMember
  | _ => false

/-- An answer that is read off the declaration. -/
def read (s : StaticGroup) (f : Group.StaticDeclaration → Answer) : Answer :=
  match s.declaration with
  | .ok declaration => f declaration
  | .error e => .failed e

/-- The answer to a use. -/
def answer (internal : List String) (s : StaticGroup) : Use → Answer
  | .get name => s.read fun declaration => .template (declaration.group.get? name)
  | .contains name => s.read fun declaration => .truth (declaration.group.contains name)
  | .groupName => s.read fun declaration => .name declaration.name
  | .isPublic => s.read fun declaration => .truth declaration.isPublic
  | .wholeGroup => s.read fun declaration => .group declaration.group
  | .member name => .member (s.access internal name)
  | .asValue => .refused ⟨Value.staticGroup.typeName, none⟩

/-- The static group after a use. -/
def after (internal : List String) (s : StaticGroup) (use : Use) : StaticGroup :=
  if use.needsDeclaration internal then s.forced else s

/-- A static group as displayed. -/
def display (s : StaticGroup) : String :=
  match s.declaration? with
  | none => "StaticGroup(<uninitialized>)"
  | some declaration =>
    "StaticGroup(" ++ Text.quoted declaration.name ++ ", " ++
      Group.displayNames declaration.group.names ++ ")"

end StaticGroup

end TextTemplate
