import TextTemplate.Attributes
import TextTemplate.Settings.Basic
import TextTemplate.Value.Render
import TextTemplate.Group.Declaration

/-!
# Rendering

A template is rendered from left to right.  A missing attribute and a missing template stand for
nothing; a missing template is noted in the log.  An included template is rendered with no
attributes at all.  The one thing that can go wrong is that inclusions are nested too deeply; it
ends the rendering at once.

The nesting that is left is a budget, of which each inclusion of a template that exists spends one
unit (`Rendering.included`).  Without a limit the budget is the number of templates of the group:
inclusions nested more deeply than that repeat a template, and so never end.
-/

namespace TextTemplate

/-- Why a rendering stops. -/
inductive RenderError where
  /-- The template would be included more deeply than the limit allows. -/
  | includeLimit (name : String) (limit : Int)
  /-- Inclusions repeat themselves without a limit. -/
  | endless (name : String)
  /-- An attribute holds a node that is no data. -/
  | unexpectedNode (node : Value.UnexpectedNode)
deriving DecidableEq, Repr

/-- The text of the failure, as shown to a user. -/
def RenderError.message : RenderError → String
  | .includeLimit name limit =>
    "include depth limit " ++ toString limit ++ " exceeded while rendering '" ++ name ++ "'"
  | .endless name => "endless inclusion while rendering '" ++ name ++ "'"
  | .unexpectedNode node => node.message

/-- What a rendering leaves: the missing templates in the order in which they were noted, and the
text or the reason to stop. -/
structure Outcome where
  missing : List String
  result : Except RenderError String

namespace Outcome

/-- A text, and nothing noted. -/
def text (s : String) : Outcome := ⟨[], .ok s⟩

/-- A stop, and nothing noted. -/
def stop (e : RenderError) : Outcome := ⟨[], .error e⟩

/-- A template that is missing. -/
def missingTemplate (name : String) : Outcome := ⟨[name], .ok ""⟩

/-- The outcome of one piece followed by that of the pieces after it, which are not rendered when
the first one stops. -/
def followedBy (first : Outcome) (later : Unit → Outcome) : Outcome :=
  match first.result with
  | .error e => ⟨first.missing, .error e⟩
  | .ok s =>
    let rest := later ()
    ⟨first.missing ++ rest.missing, rest.result.map (s ++ ·)⟩

theorem eq_of_result {outcome : Outcome} {result : Except RenderError String}
    (h : outcome.result = result) : outcome = ⟨outcome.missing, result⟩ := by
  rw [← h]

theorem followedBy_of_ok {first : Outcome} {s : String} (h : first.result = .ok s)
    (later : Unit → Outcome) : first.followedBy later =
      ⟨first.missing ++ (later ()).missing, (later ()).result.map (s ++ ·)⟩ := by
  rw [followedBy, h]

theorem followedBy_of_error {first : Outcome} {e : RenderError} (h : first.result = .error e)
    (later : Unit → Outcome) : first.followedBy later = ⟨first.missing, .error e⟩ := by
  rw [followedBy, h]

/-- The empty text in front changes nothing. -/
theorem text_empty_followedBy (later : Unit → Outcome) :
    (text "").followedBy later = later () := by
  rw [followedBy_of_ok rfl]
  rcases later () with ⟨m, e | s⟩ <;> simp [text, Except.map]

theorem followedBy_assoc (first : Outcome) (second third : Unit → Outcome) :
    (first.followedBy second).followedBy third =
      first.followedBy fun _ => (second ()).followedBy third := by
  obtain ⟨m, e | s⟩ := first
  · rfl
  · rcases hs : second () with ⟨n, e | t⟩
    · simp [followedBy, hs, Except.map]
    · cases ht : (third ()).result <;>
        simp [followedBy, hs, ht, Except.map, String.append_assoc, List.append_assoc]

/-- The result of two pieces depends on their results alone. -/
theorem result_followedBy_congr {first first' : Outcome} {later later' : Unit → Outcome}
    (hf : first.result = first'.result) (hl : (later ()).result = (later' ()).result) :
    (first.followedBy later).result = (first'.followedBy later').result := by
  cases hr : first'.result with
  | error e => rw [followedBy_of_error hr, followedBy_of_error (hf.trans hr)]
  | ok s => rw [followedBy_of_ok hr, followedBy_of_ok (hf.trans hr), hl]

/-- A text comes of two pieces exactly when it comes of both. -/
theorem followedBy_eq_text_iff {first : Outcome} {later : Unit → Outcome}
    {missing : List String} {text : String} :
    first.followedBy later = ⟨missing, .ok text⟩ ↔ ∃ m s n t, first = ⟨m, .ok s⟩ ∧
      later () = ⟨n, .ok t⟩ ∧ m ++ n = missing ∧ s ++ t = text := by
  constructor
  · intro h
    obtain ⟨m, _ | s⟩ := first
    · cases h
    · rcases hl : later () with ⟨n, _ | t⟩
      · simp [followedBy, hl, Except.map] at h
      · simp only [followedBy, hl, Except.map, Outcome.mk.injEq, Except.ok.injEq] at h
        exact ⟨m, s, n, t, rfl, rfl, h⟩
  · rintro ⟨m, s, n, t, rfl, hl, rfl, rfl⟩
    rw [followedBy_of_ok rfl, hl]
    rfl

/-- The note on a missing template. -/
def note (name : String) : String :=
  "Included template '" ++ name ++ "' not found in group, rendering nothing"

/-- The notes in the order in which they were made. -/
def log (outcome : Outcome) (settings : Settings) : List (Level × String) :=
  outcome.missing.map fun name => (settings.missingLevel, note name)

end Outcome

namespace Rendering

/-- The text of the value that a path leads to inside an attribute. -/
def showValue (attributes : Attributes) (name : String) (path : List String) : Outcome :=
  match (((attributes.get? name).getD .null).navigate path).render with
  | .ok s => Outcome.text s
  | .error node => Outcome.stop (.unexpectedNode node)

/-- Showing a value notes no missing template. -/
theorem missing_eq_nil_of_showValue {attributes : Attributes} {name : String}
    {path missing : List String} {result : Except RenderError String}
    (h : showValue attributes name path = ⟨missing, result⟩) : missing = [] := by
  unfold showValue at h
  split at h <;> exact (congrArg Outcome.missing h).symm

/-- Renders one expression, where `embed` renders an included template. -/
def expression (embed : String → Outcome) (attributes : Attributes) : Expression → Outcome
  | .literal s => Outcome.text s
  | .attribute name => showValue attributes name []
  | .path name segments => showValue attributes name segments
  | .inclusion name _ => embed name

/-- Renders expressions from left to right, where `embed` renders an included template. -/
def expressions (embed : String → Outcome) (attributes : Attributes) :
    List Expression → Outcome
  | [] => Outcome.text ""
  | first :: rest =>
    (expression embed attributes first).followedBy fun _ => expressions embed attributes rest

theorem expressions_append (embed : String → Outcome) (attributes : Attributes)
    (body rest : List Expression) : expressions embed attributes (body ++ rest) =
      (expressions embed attributes body).followedBy fun _ => expressions embed attributes rest := by
  induction body with
  | nil =>
    rw [List.nil_append, expressions, Outcome.text_empty_followedBy]
  | cons first later ih =>
    rw [List.cons_append, expressions, expressions, ih, Outcome.followedBy_assoc]

/-- Renders a template of the group by name, where `budget` further inclusions may be nested;
`exhausted` is why it stops when they do not suffice. -/
def included (group : Group.Definitions) (exhausted : String → RenderError) (budget : Nat)
    (name : String) : Outcome :=
  match group.lookup name with
  | none => Outcome.missingTemplate name
  | some definition =>
    match budget with
    | 0 => Outcome.stop (exhausted name)
    | budget + 1 => expressions (included group exhausted budget) ∅ definition.expressions

section

variable {group : Group.Definitions} {exhausted : String → RenderError} {budget : Nat}
  {name : String} {definition : Definition}

theorem included_of_missing (h : group.lookup name = none) :
    included group exhausted budget name = Outcome.missingTemplate name := by
  unfold included
  rw [h]

theorem included_zero (h : group.lookup name = some definition) :
    included group exhausted 0 name = Outcome.stop (exhausted name) := by
  unfold included
  rw [h]

theorem included_succ (h : group.lookup name = some definition) :
    included group exhausted (budget + 1) name =
      expressions (included group exhausted budget) ∅ definition.expressions := by
  rw [included, h]

end

/-- Why the budget of a rendering does not suffice. -/
def exhausted (limit? : Option Int) (name : String) : RenderError :=
  match limit? with
  | some limit => .includeLimit name limit
  | none => .endless name

/-- The number of inclusions that may be nested. -/
def budget (limit? : Option Int) (group : Group.Definitions) : Nat :=
  match limit? with
  | some limit => limit.toNat
  | none => group.length

/-- Renders a template of the group by name under a limit on nested inclusions. -/
def render (group : Group.Definitions) (limit? : Option Int) (attributes : Attributes)
    (body : List Expression) : Outcome :=
  expressions (included group (exhausted limit?) (budget limit? group)) attributes body

end Rendering

end TextTemplate
