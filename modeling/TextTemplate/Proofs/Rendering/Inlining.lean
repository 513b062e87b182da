import TextTemplate.Proofs.Rendering.Closed
import TextTemplate.Proofs.Rendering.Unlimited

/-!
# Inlining

An included template sees no attributes, so an inclusion can be replaced beforehand by what the
template has apart from its attributes and paths, with its own inclusions replaced in the same way.
`Inlines` says what this makes of a body.  Nothing bounds the depth of the replacement, so it comes
to an end only where inclusions do; it does for every body whose rendering ends, under some limit or
without one (`Renders.exists_inlines`), and then the inlined body has the same text whatever the
attributes are (`Rendering.inlining_keeps_text`).
-/

namespace TextTemplate

namespace Rendering

/-- The expressions that show no attribute. -/
def withoutAttributes (body : List Expression) : List Expression :=
  body.filter fun e => e.attribute?.isNone

/-- The second body is the first one with every inclusion replaced by the inlined expressions of the
template, where those that show attributes are left out, or by nothing if there is no template. -/
inductive Inlines (group : Group.Definitions) : List Expression → List Expression → Prop
  | nil : Inlines group [] []
  | kept {e : Expression} {rest later : List Expression} : e.included? = none →
      Inlines group rest later → Inlines group (e :: rest) (e :: later)
  | missing {name : String} {arguments : List String} {rest later : List Expression} :
      group.lookup name = none → Inlines group rest later →
      Inlines group (.inclusion name arguments :: rest) later
  | inclusion {name : String} {arguments : List String} {definition : Definition}
      {rest inner later : List Expression} : group.lookup name = some definition →
      Inlines group (withoutAttributes definition.expressions) inner → Inlines group rest later →
      Inlines group (.inclusion name arguments :: rest) (inner ++ later)

variable {group : Group.Definitions} {body rest inlined : List Expression} {e : Expression}
  {attributes : Attributes} {missing : List String} {text : String}

/-! ### The inlined body -/

/-- A body is inlined in one way only. -/
theorem Inlines.unique {other : List Expression} (h : Inlines group body inlined)
    (ho : Inlines group body other) : inlined = other := by
  induction h generalizing other with
  | nil =>
    cases ho
    rfl
  | kept he _ ih =>
    cases ho with
    | kept _ hr => rw [ih hr]
    | missing => cases he
    | inclusion => cases he
  | missing hl _ ih =>
    cases ho with
    | kept he => cases he
    | missing _ hr => exact ih hr
    | inclusion hl' => simp [hl] at hl'
  | inclusion hl _ _ ihi ih =>
    cases ho with
    | kept he => cases he
    | missing hl' => simp [hl] at hl'
    | inclusion hl' hi hr =>
      obtain rfl : _ = _ := Option.some.inj (hl.symm.trans hl')
      rw [ihi hi, ih hr]

/-- No inclusion is left. -/
theorem Inlines.included?_eq_none (h : Inlines group body inlined) :
    ∀ e ∈ inlined, e.included? = none := by
  induction h with
  | nil => simp
  | kept he _ ih => exact List.forall_mem_cons.2 ⟨he, ih⟩
  | missing _ _ ih => exact ih
  | inclusion _ _ _ ihi ih => exact List.forall_mem_append.2 ⟨ihi, ih⟩

theorem forall_mem_withoutAttributes : ∀ e ∈ withoutAttributes body, e.attribute? = none := by
  intro e he
  simpa using (List.mem_filter.1 he).2

/-- Inlining brings in no attributes. -/
theorem Inlines.attribute?_eq_none (h : Inlines group body inlined)
    (hb : ∀ e ∈ body, e.attribute? = none) : ∀ e ∈ inlined, e.attribute? = none := by
  induction h with
  | nil => simp
  | kept _ _ ih =>
    obtain ⟨he, hr⟩ := List.forall_mem_cons.1 hb
    exact List.forall_mem_cons.2 ⟨he, ih hr⟩
  | missing _ _ ih => exact ih (List.forall_mem_cons.1 hb).2
  | inclusion _ _ _ ihi ih =>
    exact List.forall_mem_append.2
      ⟨ihi forall_mem_withoutAttributes, ih (List.forall_mem_cons.1 hb).2⟩

theorem withoutAttributes_cons_of_none (h : e.attribute? = none) :
    withoutAttributes (e :: rest) = e :: withoutAttributes rest := by
  simp [withoutAttributes, h]

theorem withoutAttributes_cons_of_some {name : String} (h : e.attribute? = some name) :
    withoutAttributes (e :: rest) = withoutAttributes rest := by
  simp [withoutAttributes, h]

/-- Where a body can be inlined, so can what is left of it without attributes. -/
theorem Inlines.exists_withoutAttributes (h : Inlines group body inlined) :
    ∃ inner, Inlines group (withoutAttributes body) inner := by
  induction h with
  | nil => exact ⟨[], .nil⟩
  | @kept e rest later he _ ih =>
    obtain ⟨inner, hi⟩ := ih
    cases ha : e.attribute? with
    | none => exact ⟨e :: inner, by rw [withoutAttributes_cons_of_none ha]; exact .kept he hi⟩
    | some name => exact ⟨inner, by rw [withoutAttributes_cons_of_some ha]; exact hi⟩
  | missing hl _ ih =>
    obtain ⟨inner, hi⟩ := ih
    exact ⟨inner, by rw [withoutAttributes_cons_of_none rfl]; exact .missing hl hi⟩
  | inclusion hl hn _ _ ih =>
    obtain ⟨inner, hi⟩ := ih
    exact ⟨_ ++ inner, by rw [withoutAttributes_cons_of_none rfl]; exact .inclusion hl hn hi⟩

/-- A body whose rendering ends can be inlined. -/
theorem Renders.exists_inlines (h : Renders group attributes body missing text) :
    ∃ inlined, Inlines group body inlined := by
  induction h with
  | nil => exact ⟨[], .nil⟩
  | literal _ ih | «attribute» _ _ ih | path _ _ ih =>
    obtain ⟨later, hi⟩ := ih
    exact ⟨_ :: later, .kept rfl hi⟩
  | missing hl _ ih =>
    obtain ⟨later, hi⟩ := ih
    exact ⟨later, .missing hl hi⟩
  | inclusion hl _ _ ihi ih =>
    obtain ⟨inner, hn⟩ := ihi
    obtain ⟨shown, hs⟩ := hn.exists_withoutAttributes
    obtain ⟨later, hi⟩ := ih
    exact ⟨shown ++ later, .inclusion hl hs hi⟩

/-! ### The text of the inlined body -/

/-- Without attributes, showing a value shows nothing. -/
theorem eq_empty_of_showValue_empty {name : String} {path : List String}
    (h : showValue ∅ name path = Outcome.text text) : text = "" := by
  have hn : Value.navigate .null path = .null := by cases path <;> rfl
  have hg : ((∅ : Attributes).get? name).getD .null = .null := rfl
  rw [showValue, hg, hn] at h
  exact (Except.ok.inj (congrArg Outcome.result h)).symm

/-- Where there are no attributes, those that a body would show can be left out. -/
theorem Renders.withoutAttributes (h : Renders group ∅ body missing text) :
    Renders group ∅ (withoutAttributes body) missing text := by
  generalize ha : (∅ : Attributes) = attributes at h
  induction h with
  | nil => exact .nil
  | literal _ ih => exact .literal (ih ha)
  | «attribute» hs _ ih | path hs _ ih =>
    subst ha
    obtain rfl := eq_empty_of_showValue_empty hs
    rw [String.empty_append]
    exact ih rfl
  | missing hl _ ih => exact .missing hl (ih ha)
  | inclusion hl hi _ _ ih => exact .inclusion hl hi (ih ha)

/-- An expression that includes nothing does not depend on how inclusions are rendered. -/
theorem expression_of_included?_eq_none (h : e.included? = none) (embed embed' : String → Outcome)
    (attributes : Attributes) : expression embed attributes e = expression embed' attributes e := by
  cases e with
  | inclusion => cases h
  | _ => rfl

/-- What replaces an inclusion shows the same under all attributes. -/
theorem Inlines.expressions_eq_empty {inner : List Expression}
    (h : Inlines group (withoutAttributes body) inner) (embed : String → Outcome)
    (attributes : Attributes) :
    expressions embed attributes inner = expressions embed ∅ inner := by
  refine expressions_congr embed fun e he name ha => ?_
  rw [h.attribute?_eq_none forall_mem_withoutAttributes e he] at ha
  cases ha

/-- Under the same attributes an inlined body has the text of the body, and nothing to note. -/
theorem Inlines.expressions_eq_text (h : Inlines group body inlined)
    (hr : Renders group attributes body missing text) (embed : String → Outcome) :
    expressions embed attributes inlined = Outcome.text text := by
  induction h generalizing attributes missing text with
  | nil =>
    cases hr
    rfl
  | kept he _ ih =>
    cases hr with
    | literal hr => exact Outcome.followedBy_eq_text_iff.2 ⟨[], _, [], _, rfl, ih hr, rfl, rfl⟩
    | «attribute» hs hr | path hs hr =>
      exact Outcome.followedBy_eq_text_iff.2 ⟨[], _, [], _, hs, ih hr, rfl, rfl⟩
    | missing => cases he
    | inclusion => cases he
  | missing hl _ ih =>
    cases hr with
    | missing _ hr => exact ih hr
    | inclusion hl' => simp [hl] at hl'
  | @inclusion name arguments definition rest inner later hl hi _ ihi ih =>
    cases hr with
    | missing hl' => simp [hl] at hl'
    | inclusion hl' hn hr =>
      obtain rfl : _ = _ := Option.some.inj (hl.symm.trans hl')
      rw [expressions_append, hi.expressions_eq_empty, ihi hn.withoutAttributes, ih hr]
      rfl

/-- Inlining keeps the result of a body, be it a text or a failure, under all attributes, as long as
its inclusions have texts. -/
theorem Inlines.result_expressions {exhausted : String → RenderError} {units : Nat}
    (h : Inlines group body inlined)
    (hs : ∀ name arguments, .inclusion name arguments ∈ body →
      ∃ s, (included group exhausted units name).result = .ok s)
    (embed : String → Outcome) (attributes : Attributes) :
    (expressions embed attributes inlined).result =
      (expressions (included group exhausted units) attributes body).result := by
  induction h with
  | nil => rfl
  | kept he _ ih =>
    have hr := ih fun name arguments hm => hs name arguments (List.mem_cons_of_mem _ hm)
    rw [expressions, expressions, expression_of_included?_eq_none he embed]
    exact Outcome.result_followedBy_congr rfl hr
  | @missing name _ _ later hl _ ih =>
    have hr := ih fun name arguments hm => hs name arguments (List.mem_cons_of_mem _ hm)
    have hempty : (Outcome.text "").result = (Outcome.missingTemplate name).result := rfl
    rw [expressions, expression, included_of_missing hl]
    calc (expressions embed attributes later).result
        = ((Outcome.text "").followedBy fun _ => expressions embed attributes later).result := by
          rw [Outcome.text_empty_followedBy]
      _ = _ := Outcome.result_followedBy_congr hempty hr
  | @inclusion name arguments definition rest inner later hl hi _ _ ih =>
    have hr := ih fun name arguments hm => hs name arguments (List.mem_cons_of_mem _ hm)
    obtain ⟨s, hok⟩ := hs name arguments List.mem_cons_self
    have hn : expressions embed attributes inner = Outcome.text s := by
      cases units with
      | zero =>
        rw [included_zero hl] at hok
        cases hok
      | succ units =>
        rw [included_succ hl] at hok
        have hd := renders_of_expressions (Outcome.eq_of_result hok)
        rw [hi.expressions_eq_empty, hi.expressions_eq_text hd.withoutAttributes embed]
    rw [expressions_append, expressions, hn]
    exact Outcome.result_followedBy_congr hok.symm hr

/-- A body without inclusions has a text when the attributes are trees. -/
theorem exists_text_of_included?_eq_none (ht : attributes.AreTrees)
    (h : ∀ e ∈ body, e.included? = none) (embed : String → Outcome) :
    ∃ text, (expressions embed attributes body).result = .ok text := by
  induction body with
  | nil => exact ⟨"", rfl⟩
  | cons first rest ih =>
    obtain ⟨hf, hr⟩ := List.forall_mem_cons.1 h
    obtain ⟨t, hl⟩ := ih hr
    have hs : ∃ s, (expression embed attributes first).result = .ok s := by
      cases first with
      | literal s => exact ⟨s, rfl⟩
      | «attribute» name =>
        obtain ⟨s, hs⟩ := exists_showValue_eq_text ht name []
        exact ⟨s, congrArg Outcome.result hs⟩
      | path name segments =>
        obtain ⟨s, hs⟩ := exists_showValue_eq_text ht name segments
        exact ⟨s, congrArg Outcome.result hs⟩
      | inclusion => cases hf
    obtain ⟨s, hs⟩ := hs
    exact ⟨s ++ t, by rw [expressions, Outcome.followedBy_of_ok hs, hl]; rfl⟩

/-- All that is included in a body with a text has a text. -/
theorem exists_included_eq_ok {exhausted : String → RenderError} {units : Nat}
    (h : expressions (included group exhausted units) attributes body = ⟨missing, .ok text⟩)
    {name : String} {arguments : List String} (hm : .inclusion name arguments ∈ body) :
    ∃ s, (included group exhausted units name).result = .ok s := by
  obtain ⟨texts, ht, -, -⟩ := exists_texts_of_expressions h
  have hr : (included group exhausted units name).result ∈ texts.map .ok :=
    ht ▸ List.mem_map.2 ⟨_, hm, rfl⟩
  obtain ⟨s, -, hs⟩ := List.mem_map.1 hr
  exact ⟨s, hs.symm⟩

/-- A body without inclusions is inlined as it stands. -/
theorem inlines_self (h : ∀ e ∈ body, e.included? = none) : Inlines group body body := by
  induction body with
  | nil => exact .nil
  | cons e rest ih =>
    obtain ⟨he, hr⟩ := List.forall_mem_cons.1 h
    exact .kept he (ih hr)

/-- Without inclusions a limit makes no difference. -/
theorem result_eq_ok_iff_renders (h : ∀ e ∈ body, e.included? = none) (limit? : Option Int) :
    (render group limit? attributes body).result = .ok text ↔
      Renders group attributes body [] text := by
  have hself : Inlines group body body := inlines_self h
  constructor
  · intro hr
    have hd : Renders group attributes body (render group limit? attributes body).missing text :=
      renders_of_expressions (Outcome.eq_of_result hr)
    -- nothing is noted, since the body shows its text whatever becomes of inclusions
    have hn : (render group limit? attributes body).missing = [] :=
      congrArg Outcome.missing (hself.expressions_eq_text hd _)
    rwa [hn] at hd
  · intro hr
    exact congrArg Outcome.result (hself.expressions_eq_text hr _)

/-- **Inlining keeps the text.**  A body that has a text under some limit and some attributes can be
inlined, in one way; nothing is included any more, and under all attributes, over any group and
under any limit, the inlined body renders as the body does over its own group.  So can a body whose
rendering ends without a limit; under all attributes it ends just when the rendering of the inlined
body does, under any limit or without one, and with the same text. -/
theorem inlining_keeps_text (group : Group.Definitions) (body : List Expression) :
    (∀ limit? attributes text, (render group limit? attributes body).result = .ok text →
      ∃ inlined, (∀ other, Inlines group body other ↔ other = inlined) ∧
        (∀ e ∈ inlined, e.included? = none) ∧
        ∀ (shown : Attributes) (group' : Group.Definitions) (limit?' : Option Int),
          (render group' limit?' shown inlined).result =
            (render group limit? shown body).result ∧
          (shown.AreTrees → ∃ text', (render group' limit?' shown inlined).result = .ok text')) ∧
    ∀ attributes missing text, Renders group attributes body missing text →
      ∃ inlined, (∀ other, Inlines group body other ↔ other = inlined) ∧
        (∀ e ∈ inlined, e.included? = none) ∧
        ∀ (shown : Attributes) (group' : Group.Definitions) (text' : String),
          ((∃ missing', Renders group shown body missing' text') ↔
            Renders group' shown inlined [] text') ∧
          ∀ limit?', (render group' limit?' shown inlined).result = .ok text' ↔
            Renders group' shown inlined [] text' := by
  constructor
  · intro limit? attributes text h
    have hb := Outcome.eq_of_result h
    obtain ⟨inlined, hi⟩ := (renders_of_expressions hb).exists_inlines
    have hn := hi.included?_eq_none
    refine ⟨inlined, fun other => ⟨fun ho => ho.unique hi, fun ho => ho ▸ hi⟩, hn, ?_⟩
    intro shown group' limit?'
    exact ⟨hi.result_expressions (fun _ _ => exists_included_eq_ok hb) _ shown,
      fun ht => exists_text_of_included?_eq_none ht hn _⟩
  · intro attributes missing text h
    obtain ⟨inlined, hi⟩ := h.exists_inlines
    have hn := hi.included?_eq_none
    obtain ⟨units, henough⟩ := h.exists_budget
    have hb := henough units (Nat.le_refl _) .endless
    refine ⟨inlined, fun other => ⟨fun ho => ho.unique hi, fun ho => ho ▸ hi⟩, hn, ?_⟩
    intro shown group' text'
    have hany (limit?' : Option Int) : (render group' limit?' shown inlined).result = .ok text' ↔
        Renders group' shown inlined [] text' := result_eq_ok_iff_renders hn limit?'
    refine ⟨⟨?_, fun hr => ?_⟩, hany⟩
    · rintro ⟨missing', hr⟩
      exact (hany none).1 (congrArg Outcome.result (hi.expressions_eq_text hr _))
    · have hr := (hany none).2 hr
      have hsame := hi.result_expressions (fun _ _ => exists_included_eq_ok hb)
        (included group' (exhausted none) (budget none group')) shown
      exact ⟨_, renders_of_expressions (Outcome.eq_of_result (hsame.symm.trans hr))⟩

/-- Inclusions two deep, with a missing one inside and one beside them; the cycle that the group has
is not reached. -/
theorem inlining_keeps_text_of_nested :
    let group : Group.Definitions :=
      [("a", ⟨"", [.literal "a", .attribute "x", .inclusion "b" ["x"]], none⟩),
        ("b", ⟨"", [.path "x" ["k"], .literal "b", .inclusion "none" []], none⟩),
        ("c", ⟨"", [.inclusion "c" []], none⟩)]
    let body : List Expression :=
      [.attribute "x", .inclusion "a" ["x"], .inclusion "none" [], .literal "!"]
    let inlined : List Expression := [.attribute "x", .literal "a", .literal "b", .literal "!"]
    let attributes := (∅ : Attributes).insert "x" (.text "v")
    (render group (some 2) attributes body).result = .ok "vab!" ∧ Inlines group body inlined ∧
      (∀ shown group' limit?', (render group' limit?' shown inlined).result =
        (render group (some 2) shown body).result) ∧
      ∀ shown text', (∃ missing', Renders group shown body missing' text') ↔
        Renders [] shown inlined [] text' := by
  intro group body inlined attributes
  have h : (render group (some 2) attributes body).result = .ok "vab!" := rfl
  have hb : Inlines group [.literal "b", .inclusion "none" []] [.literal "b"] :=
    .kept rfl (.missing rfl .nil)
  have hab : Inlines group [.inclusion "b" ["x"]] ([.literal "b"] ++ []) := .inclusion rfl hb .nil
  have ha : Inlines group [.literal "a", .inclusion "b" ["x"]] [.literal "a", .literal "b"] :=
    .kept rfl hab
  have hlast : Inlines group [.inclusion "none" [], .literal "!"] [.literal "!"] :=
    .missing rfl (.kept rfl .nil)
  have hrest : Inlines group [.inclusion "a" ["x"], .inclusion "none" [], .literal "!"]
      ([.literal "a", .literal "b"] ++ [.literal "!"]) := .inclusion rfl ha hlast
  have hi : Inlines group body inlined := .kept rfl hrest
  have hd := renders_of_expressions (Outcome.eq_of_result h)
  obtain ⟨hlimited, hunlimited⟩ := inlining_keeps_text group body
  obtain ⟨_, hone, -, hkeep⟩ := hlimited _ _ _ h
  obtain ⟨_, hone', -, hkeep'⟩ := hunlimited _ _ _ hd
  obtain rfl := (hone _).1 hi
  obtain rfl := (hone' _).1 hi
  exact ⟨h, hi, fun shown group' limit?' => (hkeep shown group' limit?').1,
    fun shown text' => (hkeep' shown [] text').1⟩

end Rendering

end TextTemplate
