import TextTemplate.Fault
import TextTemplate.Text.Cut
import TextTemplate.Body.Expression
import TextTemplate.Body.Item

/-!
# Reading a template body

The character `<` always opens an expression, which ends at the nearest `>`; everything else is
literal text.  `Body.scan` reads a body, with faults placed by their index in the body itself.  An
expression is an identifier, identifiers joined by full stops, or an identifier followed by a list
of identifiers in parentheses.
-/

namespace TextTemplate

namespace Body

/-! ### One expression -/

/-- The place of the first item, or that of the closing bracket where no item is left. -/
def placeOf (close : Nat) : List PlacedItem → Nat
  | [] => close
  | item :: _ => item.index

/-- Blames one character. -/
def blame (problem : Problem) (index : Nat) : Fault := ⟨problem, ⟨index, index + 1⟩⟩

/-- Accepts nothing but the end of the expression. -/
def readEnd : List PlacedItem → Except Fault Unit
  | [] => .ok ()
  | item :: _ => .error (blame (.unexpectedCharacter item.item.first) item.index)

/-- Reads the segments of a path, each after a full stop. -/
def readSegments (close : Nat) : List PlacedItem → Except Fault (List String)
  | ⟨.mark '.', _⟩ :: ⟨.name c others, _⟩ :: rest =>
    (readSegments close rest).map (String.ofList (c :: others) :: ·)
  | ⟨.mark '.', _⟩ :: rest => .error (blame (.expected .identifier) (placeOf close rest))
  | rest => (readEnd rest).map fun _ => []

/-- Reads one or more argument names, separated by commas, the closing parenthesis and the end of
the expression. -/
def readArguments (close : Nat) : List PlacedItem → Except Fault (List String)
  | ⟨.name c others, _⟩ :: ⟨.mark ',', _⟩ :: rest =>
    (readArguments close rest).map (String.ofList (c :: others) :: ·)
  | ⟨.name c others, _⟩ :: ⟨.mark ')', _⟩ :: rest =>
    (readEnd rest).map fun _ => [String.ofList (c :: others)]
  | ⟨.name _ _, _⟩ :: item :: _ => .error (blame (.expected .comma) item.index)
  | [⟨.name _ _, _⟩] => .error (blame (.expected .closingParen) close)
  | rest => .error (blame (.expected .identifier) (placeOf close rest))

/-- Reads the items of an expression whose closing bracket has the index `close`. -/
def readExpression (close : Nat) : List PlacedItem → Except Fault Expression
  | ⟨.name c others, _⟩ :: ⟨.mark '(', _⟩ :: ⟨.mark ')', _⟩ :: rest =>
    (readEnd rest).map fun _ => .inclusion (String.ofList (c :: others)) []
  | ⟨.name c others, _⟩ :: ⟨.mark '(', _⟩ :: rest =>
    (readArguments close rest).map (.inclusion (String.ofList (c :: others)))
  | ⟨.name c others, _⟩ :: rest =>
    (readSegments close rest).map fun segments =>
      if segments.isEmpty then .attribute (String.ofList (c :: others))
      else .path (String.ofList (c :: others)) segments
  | rest => .error (blame (.expected .identifier) (placeOf close rest))

/-! ### The whole body -/

/-- The literal with the given characters, or nothing if there are none. -/
def literal : List Char → List Expression
  | [] => []
  | run => [.literal (String.ofList run)]

/-- Reads a body whose first character has the given index. -/
def scanFrom (index : Nat) (text : List Char) : Except Fault (List Expression) :=
  match outer : Text.cutAt? '<' text with
  | none => .ok (literal text)
  | some (run, inner) =>
    let opened := index + run.length
    match inside : Text.cutAt? '>' inner with
    | none => .error ⟨.unfinishedExpression, ⟨opened, index + text.length⟩⟩
    | some (content, later) =>
      let close := opened + 1 + content.length
      have shorter : later.length < text.length := by
        rw [(Text.cutAt?_eq_some_iff.1 outer).1, (Text.cutAt?_eq_some_iff.1 inside).1]
        simp only [List.length_append, List.length_cons]
        omega
      match readExpression close (items (opened + 1) content) with
      | .error fault => .error fault
      | .ok expression =>
        (scanFrom (close + 1) later).map fun expressions =>
          literal run ++ expression :: expressions
termination_by text.length

theorem scanFrom_of_not_mem {index : Nat} {text : List Char} (h : '<' ∉ text) :
    scanFrom index text = .ok (literal text) := by
  have hn := Text.cutAt?_eq_none_iff.2 h
  rw [scanFrom]
  split
  · rfl
  · next hs => simp [hn] at hs

/-- A text, an expression and what follows are read one after the other. -/
theorem scanFrom_of_expression {index : Nat} {run content later : List Char}
    {expression : Expression} {expressions : List Expression} (hr : '<' ∉ run)
    (hc : '>' ∉ content)
    (he : readExpression (index + run.length + 1 + content.length)
      (items (index + run.length + 1) content) = .ok expression)
    (hl : scanFrom (index + run.length + 1 + content.length + 1) later = .ok expressions) :
    scanFrom index (run ++ '<' :: (content ++ '>' :: later)) =
      .ok (literal run ++ expression :: expressions) := by
  have ho : Text.cutAt? '<' (run ++ '<' :: (content ++ '>' :: later)) =
      some (run, content ++ '>' :: later) := Text.cutAt?_eq_some_iff.2 ⟨rfl, hr⟩
  have hi : Text.cutAt? '>' (content ++ '>' :: later) = some (content, later) :=
    Text.cutAt?_eq_some_iff.2 ⟨rfl, hc⟩
  rw [scanFrom]
  split
  · next hn => simp [ho] at hn
  · next hs =>
    obtain ⟨rfl, rfl⟩ : run = _ ∧ content ++ '>' :: later = _ := by simpa [ho] using hs
    split
    · next hn => simp [hi] at hn
    · next hs =>
      obtain ⟨rfl, rfl⟩ : content = _ ∧ later = _ := by simpa [hi] using hs
      simp [he, hl, Except.map]

/-- The expressions of a body. -/
def scan (text : List Char) : Except Fault (List Expression) := scanFrom 0 text

end Body

end TextTemplate
