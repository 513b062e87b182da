/-!
# Expressions of a template body

A template body is a sequence of literal runs and expressions in angle brackets.
-/

namespace TextTemplate

/-- One piece of a template body. -/
inductive Expression where
  /-- Text that is written as it stands. -/
  | literal (text : String)
  /-- The value of an attribute: `<name>`. -/
  | attribute (name : String)
  /-- A value inside an attribute: `<name.a.b>`. -/
  | path (name : String) (segments : List String)
  /-- Another template of the group: `<name(a, b)>`.  The argument names are kept as written and
  pass nothing on. -/
  | inclusion (name : String) (arguments : List String)
deriving DecidableEq, Repr

namespace Expression

/-- The attribute whose value the expression shows. -/
def attribute? : Expression → Option String
  | .attribute name | .path name _ => some name
  | _ => none

/-- The template that the expression includes. -/
def included? : Expression → Option String
  | .inclusion name _ => some name
  | _ => none

end Expression

end TextTemplate
