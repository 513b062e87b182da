import TextTemplate.Text.NameSet
import TextTemplate.Body.Expression

/-!
# Template definitions

A definition is what reading a template leaves: its body text, the expressions of the body and the
parameters it declares.
-/

namespace TextTemplate

/-- A template as it was read. -/
structure Definition where
  /-- The decoded body. -/
  body : String
  expressions : List Expression
  /-- The declared parameters; `none` where the template declares none and takes any attribute. -/
  parameters? : Option NameSet
deriving DecidableEq

namespace Definition

instance : Inhabited Definition := ⟨⟨"", [], none⟩⟩

/-- A template takes an attribute when it declares it, or declares no parameters at all. -/
def accepts (definition : Definition) (name : String) : Bool :=
  match definition.parameters? with
  | none => true
  | some parameters => decide (name ∈ parameters)

end Definition

end TextTemplate
