import Mathlib.Data.List.Forall2
import TextTemplate.Proofs.Rendering.Cycles

/-!
# Rendering without a limit

`Renders` describes rendering without any limit: a rendering that ends is a derivation, however
deeply inclusions are nested in it, and falls into those of its expressions
(`Rendering.renders_iff_parts`).  `Rendering.render_none_eq_iff_renders` shows that the budget
which the group's size gives is as good as none.

Where no cycle of inclusions can be reached, a limit of the group's size changes nothing, and where
one can, every limit is exceeded (`Rendering.limits_and_cycles`).
-/

namespace TextTemplate

namespace Rendering

/-- Rendering the body with these attributes ends, having noted these missing templates and with
this text. -/
inductive Renders (group : Group.Definitions) :
    Attributes → List Expression → List String → String → Prop
  | nil {attributes : Attributes} : Renders group attributes [] [] ""
  | literal {attributes : Attributes} {rest : List Expression} {missing : List String}
      {s text : String} : Renders group attributes rest missing text →
      Renders group attributes (.literal s :: rest) missing (s ++ text)
  | attribute {attributes : Attributes} {rest : List Expression} {missing : List String}
      {name s text : String} : showValue attributes name [] = Outcome.text s →
      Renders group attributes rest missing text →
      Renders group attributes (.attribute name :: rest) missing (s ++ text)
  | path {attributes : Attributes} {rest : List Expression} {missing : List String}
      {name s text : String} {segments : List String} :
      showValue attributes name segments = Outcome.text s →
      Renders group attributes rest missing text →
      Renders group attributes (.path name segments :: rest) missing (s ++ text)
  | missing {attributes : Attributes} {rest : List Expression} {missing arguments : List String}
      {name text : String} : group.lookup name = none →
      Renders group attributes rest missing text →
      Renders group attributes (.inclusion name arguments :: rest) (name :: missing) text
  | inclusion {attributes : Attributes} {rest : List Expression}
      {inner missing arguments : List String} {name s text : String} {definition : Definition} :
      group.lookup name = some definition →
      Renders group ∅ definition.expressions inner s →
      Renders group attributes rest missing text →
      Renders group attributes (.inclusion name arguments :: rest) (inner ++ missing) (s ++ text)

variable {group : Group.Definitions} {body rest : List Expression} {e : Expression}
  {attributes : Attributes} {exhausted : String → RenderError} {budget : Nat}
  {name text : String} {missing arguments : List String}

/-! ### The parts of a rendering -/

/-- An inclusion alone renders what the template of its name renders without attributes. -/
theorem Renders.inclusion_alone {definition : Definition} (hl : group.lookup name = some definition)
    (h : Renders group ∅ definition.expressions missing text) :
    Renders group attributes [.inclusion name arguments] missing text := by
  have hn : Renders group attributes [.inclusion name arguments] (missing ++ []) (text ++ "") :=
    .inclusion hl h .nil
  rwa [List.append_nil, String.append_empty] at hn

/-- A rendering ends when that of the first expression and that of the others do. -/
theorem renders_cons_iff : Renders group attributes (e :: rest) missing text ↔
    ∃ m s n t, Renders group attributes [e] m s ∧ Renders group attributes rest n t ∧
      m ++ n = missing ∧ s ++ t = text := by
  constructor
  · intro h
    -- one expression renders as it does in front of others, followed by nothing
    have single {m : List String} {s : String} (hs : Renders group attributes [e] m (s ++ "")) :
        Renders group attributes [e] m s := by rwa [String.append_empty] at hs
    cases h with
    | literal hr => exact ⟨[], _, _, _, single (.literal .nil), hr, rfl, rfl⟩
    | «attribute» hs hr => exact ⟨[], _, _, _, single (.attribute hs .nil), hr, rfl, rfl⟩
    | path hs hr => exact ⟨[], _, _, _, single (.path hs .nil), hr, rfl, rfl⟩
    | missing hl hr => exact ⟨[_], "", _, _, .missing hl .nil, hr, rfl, String.empty_append⟩
    | inclusion hl hi hr => exact ⟨_, _, _, _, .inclusion_alone hl hi, hr, rfl, rfl⟩
  · rintro ⟨m, s, n, t, hf, hr, rfl, rfl⟩
    cases hf with
    | literal hn => cases hn; rw [String.append_empty]; exact .literal hr
    | «attribute» hs hn => cases hn; rw [String.append_empty]; exact .attribute hs hr
    | path hs hn => cases hn; rw [String.append_empty]; exact .path hs hr
    | missing hl hn => cases hn; rw [String.empty_append]; exact .missing hl hr
    | inclusion hl hi hn =>
      cases hn
      rw [String.append_empty, List.append_nil]
      exact .inclusion hl hi hr

/-- **A rendering falls into those of its expressions**: its text is made of theirs, and what it
notes of what they note. -/
theorem renders_iff_parts : Renders group attributes body missing text ↔
    ∃ parts : List (List String × String),
      List.Forall₂ (fun e part => Renders group attributes [e] part.1 part.2) body parts ∧
        parts.flatMap Prod.fst = missing ∧ String.join (parts.map Prod.snd) = text := by
  induction body generalizing missing text with
  | nil =>
    constructor
    · rintro ⟨⟩
      exact ⟨[], .nil, rfl, rfl⟩
    · rintro ⟨parts, hp, rfl, rfl⟩
      cases hp
      exact .nil
  | cons e rest ih =>
    rw [renders_cons_iff]
    constructor
    · rintro ⟨m, s, n, t, hf, hr, rfl, rfl⟩
      obtain ⟨parts, hp, rfl, rfl⟩ := ih.1 hr
      exact ⟨(m, s) :: parts, .cons hf hp, rfl, String.join_cons⟩
    · rintro ⟨parts, hp, rfl, rfl⟩
      cases hp with
      | @cons _ part _ parts hf hp =>
        exact ⟨part.1, part.2, _, _, hf, ih.2 ⟨parts, hp, rfl, rfl⟩, rfl, String.join_cons.symm⟩

/-- A missing template is noted, and has no text. -/
theorem renders_inclusion_iff :
    Renders group attributes [.inclusion name arguments] missing text ↔
      match group.lookup name with
      | some definition => Renders group ∅ definition.expressions missing text
      | none => missing = [name] ∧ text = "" := by
  cases hl : group.lookup name with
  | none =>
    constructor
    · intro h
      cases h with
      | missing _ hn => cases hn; exact ⟨rfl, rfl⟩
      | inclusion hl' => simp [hl] at hl'
    · rintro ⟨rfl, rfl⟩
      exact .missing hl .nil
  | some definition =>
    constructor
    · intro h
      cases h with
      | missing hl' => simp [hl] at hl'
      | inclusion hl' hi hn =>
        cases hn
        obtain rfl : definition = _ := Option.some.inj (hl.symm.trans hl')
        rw [String.append_empty, List.append_nil]
        exact hi
    · exact .inclusion_alone hl

/-! ### Budgets -/

/-- A rendering that ends nests inclusions only so deeply, and has its text under every budget that
suffices for that. -/
theorem Renders.exists_budget (h : Renders group attributes body missing text) :
    ∃ enough, ∀ budget, enough ≤ budget → ∀ exhausted,
      expressions (included group exhausted budget) attributes body = ⟨missing, .ok text⟩ := by
  induction h with
  | nil => exact ⟨0, fun _ _ _ => rfl⟩
  | literal _ ih =>
    obtain ⟨n, hn⟩ := ih
    exact ⟨n, fun budget hb ex => Outcome.followedBy_eq_text_iff.2
      ⟨[], _, _, _, rfl, hn budget hb ex, rfl, rfl⟩⟩
  | «attribute» hs _ ih | path hs _ ih =>
    obtain ⟨n, hn⟩ := ih
    exact ⟨n, fun budget hb ex => Outcome.followedBy_eq_text_iff.2
      ⟨[], _, _, _, hs, hn budget hb ex, rfl, rfl⟩⟩
  | missing hl _ ih =>
    obtain ⟨n, hn⟩ := ih
    exact ⟨n, fun budget hb ex => Outcome.followedBy_eq_text_iff.2
      ⟨[_], "", _, _, included_of_missing hl, hn budget hb ex, rfl, String.empty_append⟩⟩
  | inclusion hl _ _ ihi ih =>
    obtain ⟨n, hn⟩ := ih
    obtain ⟨m, hm⟩ := ihi
    -- one unit for the inclusion, and what the included template needs
    refine ⟨max (m + 1) n, fun budget hb ex => ?_⟩
    obtain ⟨inner, rfl⟩ : ∃ k, budget = k + 1 := ⟨budget - 1, by omega⟩
    exact Outcome.followedBy_eq_text_iff.2
      ⟨_, _, _, _, (included_succ hl).trans (hm inner (by omega) ex), hn _ (by omega) ex, rfl, rfl⟩

/-- A text under some budget is a rendering that ends. -/
theorem renders_of_expressions
    (h : expressions (included group exhausted budget) attributes body = ⟨missing, .ok text⟩) :
    Renders group attributes body missing text := by
  induction budget using Nat.strongRecOn generalizing attributes body missing text with
  | _ budget ihb =>
    induction body generalizing missing text with
    | nil => cases h; exact .nil
    | cons first rest ih =>
      obtain ⟨m, s, n, t, hf, hl, rfl, rfl⟩ := Outcome.followedBy_eq_text_iff.1 h
      have hr := ih hl
      cases first with
      | literal s' => cases hf; exact .literal hr
      | «attribute» name =>
        obtain rfl := missing_eq_nil_of_showValue hf
        exact .attribute hf hr
      | path name segments =>
        obtain rfl := missing_eq_nil_of_showValue hf
        exact .path hf hr
      | inclusion name arguments =>
        cases hd : group.lookup name with
        | none =>
          rw [expression, included_of_missing hd] at hf
          cases hf
          simpa using Renders.missing hd hr
        | some definition =>
          cases budget with
          | zero => rw [expression, included_zero hd] at hf; cases hf
          | succ budget =>
            rw [expression, included_succ hd] at hf
            exact .inclusion hd (ihb budget (by omega) hf) hr

/-- **The budget that the group's size gives is as good as none**: a rendering without a limit ends
with a text exactly when its budget suffices for it. -/
theorem render_none_eq_iff_renders (ht : attributes.AreTrees) :
    render group none attributes body = ⟨missing, .ok text⟩ ↔
      Renders group attributes body missing text := by
  constructor
  · exact renders_of_expressions
  · intro h
    obtain ⟨enough, he⟩ := h.exists_budget
    have hr : render group (some enough) attributes body = ⟨missing, .ok text⟩ :=
      he enough (Nat.le_refl _) _
    have hc := not_leadsToCycle_of_text ht (congrArg Outcome.result hr)
    -- the group's size may suffice for less than `enough`, so both are compared with their maximum
    obtain ⟨text', hn⟩ : ∃ text', (render group none attributes body).result = .ok text' :=
      exists_text_of_not_leadsToCycle ht hc (Nat.le_refl _)
    have hn := Outcome.eq_of_result hn
    have hm : render group (some (max enough group.length : Nat)) attributes body = _ :=
      render_of_le (Nat.le_max_right _ _) hn
    rw [hn, ← hm]
    exact render_of_le (Nat.le_max_left _ _) hr

/-- **Limits and cycles.**  More budget changes no rendering that has a text.  A limit of the
group's size suffices exactly where no cycle of inclusions can be reached; where one can, no limit
suffices, and where none can, rendering without a limit ends in the same way. -/
theorem limits_and_cycles (group : Group.Definitions) (body : List Expression)
    {attributes : Attributes} (ht : attributes.AreTrees) :
    (∀ limit larger : Int, limit ≤ larger → ∀ missing text,
      render group (some limit) attributes body = ⟨missing, .ok text⟩ →
      render group (some larger) attributes body = ⟨missing, .ok text⟩) ∧
    ((∃ text, (render group (some group.length) attributes body).result = .ok text) ↔
      ¬ LeadsToCycle group body) ∧
    (LeadsToCycle group body → ∀ limit : Int, ∃ name,
      (render group (some limit) attributes body).result = .error (.includeLimit name limit)) ∧
    (¬ LeadsToCycle group body → ∃ missing text,
      render group (some group.length) attributes body = ⟨missing, .ok text⟩ ∧
      render group none attributes body = ⟨missing, .ok text⟩ ∧
      Renders group attributes body missing text) := by
  refine ⟨?_, ⟨?_, ?_⟩, ?_, ?_⟩
  · intro limit larger hl missing text hr
    exact render_of_le (by simp only [budget]; omega) hr
  · rintro ⟨text, hr⟩
    exact not_leadsToCycle_of_text ht hr
  · exact fun hc => exists_text_of_not_leadsToCycle ht hc (Nat.le_refl _)
  · intro hc limit
    obtain ⟨chain, h, hl⟩ := hc.exists_chain (limit.toNat + 1)
    have hs : Tells group _ _ body _ := tells_render ht (some limit)
    generalize (render group (some limit) attributes body).result = result at hs
    cases hs with
    | none s hn => exact absurd hl (hn chain h)
    | first => exact ⟨_, rfl⟩
  · intro hc
    obtain ⟨text, hr⟩ : ∃ text, (render group (some group.length) attributes body).result =
        .ok text := exists_text_of_not_leadsToCycle ht hc (Nat.le_refl _)
    have hr := Outcome.eq_of_result hr
    have hb : budget (some group.length) group ≤ budget none group := Nat.le_refl _
    have hn := render_of_le hb hr
    exact ⟨_, text, hr, hn, renders_of_expressions hn⟩

/-- A template included twice and a missing one do not make a cycle, and the cycle that the group
has cannot be reached. -/
theorem limits_and_cycles_of_unreachable_cycle :
    let group : Group.Definitions :=
      [("a", ⟨"", [.inclusion "b" [], .literal "-", .inclusion "b" ["x"]], none⟩),
        ("b", ⟨"", [.inclusion "none" [], .literal "b", .attribute "x"], none⟩),
        ("c", ⟨"", [.inclusion "c" []], none⟩)]
    let body : List Expression := [.inclusion "a" [], .attribute "x"]
    let attributes := (∅ : Attributes).insert "x" (.list [.text "v", .null])
    attributes.AreTrees ∧ ¬ LeadsToCycle group body ∧
      Renders group attributes body ["none", "none"] "b-bv" := by
  intro group body attributes
  have ht : attributes.AreTrees := Attributes.areTrees_empty.insert "x" rfl
  obtain ⟨-, hiff, -, hnone⟩ := limits_and_cycles group body ht
  have hc : ¬ LeadsToCycle group body := hiff.1 ⟨"b-bv", rfl⟩
  obtain ⟨missing, text, hr, -, hd⟩ := hnone hc
  have hr' : render group (some group.length) attributes body =
    ⟨["none", "none"], .ok "b-bv"⟩ := rfl
  obtain ⟨rfl, rfl⟩ : missing = ["none", "none"] ∧ text = "b-bv" := by
    simpa [hr'] using hr.symm
  exact ⟨ht, hc, hd⟩

end Rendering

end TextTemplate
