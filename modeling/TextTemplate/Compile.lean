import TextTemplate.Diagnostic
import TextTemplate.Group.Declaration

/-!
# Compiling texts

The entry points that turn a text into definitions, or into a `CompileError` that tells what is
wrong and shows where.
-/

namespace TextTemplate

/-- A fault in a source text. -/
structure CompileError where
  fault : Fault
  source : Text.Source

namespace CompileError

/-- What is wrong. -/
def message (e : CompileError) : String := e.fault.problem.message

/-- Where it is wrong. -/
def span (e : CompileError) : Text.Span := e.source.span e.fault.extent

/-- The source text up to the fault, with marks and the message. -/
def text (e : CompileError) : String := Diagnostic.format e.span e.message e.source.toString

end CompileError

/-- Reads the expressions of a body that was decoded from a source: `offsets` gives the index of
each of its characters in the source, and that of its end. -/
def compileBody (body : String) (source : Text.Source) (offsets : List Nat) :
    Except CompileError (List Expression) :=
  match Body.scan body.toList with
  | .ok expressions => .ok expressions
  | .error fault => .error ⟨fault.relocate offsets, source⟩

/-- Compiles a single template: the whole text is its body, and it takes any attribute. -/
def compileTemplate (text : String) : Except CompileError Definition :=
  match Body.scan text.toList with
  | .ok expressions => .ok ⟨text, expressions, none⟩
  | .error fault => .error ⟨fault, Text.Source.ofString text⟩

/-- Compiles a group: a sequence of declarations. -/
def compileDefinitions (text : String) : Except CompileError Group.Definitions :=
  let source := Text.Source.ofString text
  match Group.readDefinitions source with
  | .ok definitions => .ok definitions
  | .error fault => .error ⟨fault, source⟩

/-- Compiles a static declaration of a group. -/
def compileStatic (text : String) : Except CompileError Group.StaticDeclaration :=
  let source := Text.Source.ofString text
  match Group.readStatic source with
  | .ok declaration => .ok declaration
  | .error fault => .error ⟨fault, source⟩

end TextTemplate
