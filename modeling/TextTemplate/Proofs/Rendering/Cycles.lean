import TextTemplate.Proofs.Rendering.Chains
import Mathlib.Logic.Relation

/-!
# Cycles of inclusions

Templates *include* one another; a body *leads to a cycle* when it includes a template from which
one can come to a template that includes itself, directly or by way of others.  A group of `n`
templates has no chain of more than `n` inclusions unless the body leads to a cycle
(`Rendering.Chain.length_le`), and then it has chains of every length
(`Rendering.LeadsToCycle.exists_chain`).

So a rendering has a text under every limit from the group's size on, or under none
(`Rendering.exists_text_of_not_leadsToCycle`, `Rendering.not_leadsToCycle_of_text`); and where it
has one, more budget does not change it (`Rendering.render_of_le`).
-/

namespace TextTemplate

namespace Rendering

open Relation

/-- The body includes a template of this name, and there is one. -/
def IncludedIn (group : Group.Definitions) (body : List Expression) (name : String) : Prop :=
  (∃ arguments, .inclusion name arguments ∈ body) ∧ (group.lookup name).isSome

/-- The template named first includes the one named second. -/
def Includes (group : Group.Definitions) (name included : String) : Prop :=
  ∃ definition, group.lookup name = some definition ∧
    IncludedIn group definition.expressions included

/-- The template includes itself by way of others, or one that it includes does. -/
def IncludesCycle (group : Group.Definitions) (name : String) : Prop :=
  ∃ first, ReflTransGen (Includes group) name first ∧ TransGen (Includes group) first first

/-- A cycle of inclusions can be reached from the body. -/
def LeadsToCycle (group : Group.Definitions) (body : List Expression) : Prop :=
  ∃ name, IncludedIn group body name ∧ IncludesCycle group name

variable {group : Group.Definitions} {body : List Expression} {chain : List Link}
  {attributes : Attributes} {limit? larger? : Option Int} {missing : List String} {text : String}

/-! ### Chains and cycles -/

theorem includedIn_of_getElem? {position : Nat} {name : String} {arguments : List String}
    {definition : Definition} (hb : body[position]? = some (.inclusion name arguments))
    (hl : group.lookup name = some definition) : IncludedIn group body name :=
  ⟨⟨arguments, List.mem_of_getElem? hb⟩, by rw [hl]; rfl⟩

/-- All templates of a chain are in the group. -/
theorem Chain.names_subset (h : Chain group body chain) :
    chain.map Link.name ⊆ Entries.keys group := by
  induction h with
  | nil => simp
  | cons _ hl _ ih => exact List.cons_subset.2 ⟨Entries.mem_keys_of_lookup_eq_some hl, ih⟩

/-- Every template of a chain is reached from one that the body includes. -/
theorem Chain.reached (h : Chain group body chain) :
    ∀ name ∈ chain.map Link.name,
      ∃ first, IncludedIn group body first ∧ ReflTransGen (Includes group) first name := by
  induction h with
  | nil => simp
  | @cons body position first arguments definition chain hb hl _ ih =>
    have hi := includedIn_of_getElem? hb hl
    intro name hm
    rcases List.mem_cons.1 hm with rfl | hm
    · exact ⟨_, hi, .refl⟩
    · obtain ⟨next, hn, hr⟩ := ih name hm
      exact ⟨first, hi, .head ⟨definition, hl, hn⟩ hr⟩

/-- Along a chain, each template leads to all the later ones. -/
theorem Chain.pairwise_transGen (h : Chain group body chain) :
    (chain.map Link.name).Pairwise (TransGen (Includes group)) := by
  induction h with
  | nil => simp
  | @cons body position first arguments definition chain hb hl hc ih =>
    refine List.pairwise_cons.2 ⟨fun name hm => ?_, ih⟩
    obtain ⟨next, hn, hr⟩ := hc.reached name hm
    exact .head' ⟨definition, hl, hn⟩ hr

/-- Where no cycle can be reached, the templates of a chain are distinct, so there are at most as
many as the group has. -/
theorem Chain.length_le (h : Chain group body chain) (hn : ¬ LeadsToCycle group body) :
    chain.length ≤ group.length := by
  have hd : (chain.map Link.name).Nodup := by
    refine h.pairwise_transGen.imp_of_mem fun {name later} hm _ ht => ?_
    rintro rfl
    obtain ⟨first, hi, hr⟩ := h.reached name hm
    exact hn ⟨first, hi, name, hr, ht⟩
  -- pigeonhole: distinct names of the group are at most as many as its entries
  have := hd.length_le_of_subset h.names_subset
  simpa [Entries.keys] using this

theorem IncludesCycle.exists_includes {name : String} (h : IncludesCycle group name) :
    ∃ next, Includes group name next ∧ IncludesCycle group next := by
  obtain ⟨first, hr, hc⟩ := h
  -- a template on the cycle goes on along it, any other one goes on towards it
  rcases hr.cases_head with rfl | ⟨next, hn, hr⟩
  · obtain ⟨next, hn, hr⟩ := TransGen.head'_iff.1 hc
    exact ⟨next, hn, _, hr, hc⟩
  · exact ⟨next, hn, first, hr, hc⟩

/-- From a body that leads to a cycle, inclusions can be followed forever. -/
theorem LeadsToCycle.exists_chain (h : LeadsToCycle group body) (n : Nat) :
    ∃ chain, Chain group body chain ∧ chain.length = n := by
  induction n generalizing body with
  | zero => exact ⟨[], .nil body, rfl⟩
  | succ n ih =>
    obtain ⟨name, ⟨⟨arguments, hm⟩, -⟩, hc⟩ := h
    obtain ⟨next, ⟨definition, hl, hn⟩, hc'⟩ := hc.exists_includes
    obtain ⟨position, hb⟩ := List.mem_iff_getElem?.1 hm
    obtain ⟨chain, hchain, rfl⟩ := ih ⟨next, hn, hc'⟩
    exact ⟨⟨position, name⟩ :: chain, .cons hb hl hchain, rfl⟩

/-! ### Limits that suffice -/

/-- A rendering has a text exactly when there is no chain that its budget does not suffice for. -/
theorem exists_text_iff (ht : attributes.AreTrees) :
    (∃ text, (render group limit? attributes body).result = .ok text) ↔
      ∀ chain, Chain group body chain → chain.length ≠ budget limit? group + 1 := by
  have hs : Tells group _ _ body _ := tells_render ht limit?
  generalize (render group limit? attributes body).result = result at hs
  cases hs with
  | none s h => exact ⟨fun _ => h, fun _ => ⟨s, rfl⟩⟩
  | first chain link hl h =>
    constructor
    · rintro ⟨text, hr⟩
      cases hr
    · intro hn
      exact absurd (by simpa using hl) (hn _ h.1)

/-- No limit suffices where a cycle can be reached. -/
theorem not_leadsToCycle_of_text (ht : attributes.AreTrees) {text : String}
    (hr : (render group limit? attributes body).result = .ok text) :
    ¬ LeadsToCycle group body := by
  intro hc
  obtain ⟨chain, h, hl⟩ := hc.exists_chain (budget limit? group + 1)
  exact (exists_text_iff ht).1 ⟨text, hr⟩ chain h hl

/-- Where no cycle can be reached, a limit of the group's size suffices. -/
theorem exists_text_of_not_leadsToCycle (ht : attributes.AreTrees)
    (hn : ¬ LeadsToCycle group body) (hb : group.length ≤ budget limit? group) :
    ∃ text, (render group limit? attributes body).result = .ok text := by
  refine (exists_text_iff ht).2 fun chain h hl => ?_
  have := h.length_le hn
  omega

/-- A body that has a text keeps it when the templates it includes keep theirs. -/
theorem expressions_of_ok {embed embed' : String → Outcome}
    (h : ∀ name missing text, embed name = ⟨missing, .ok text⟩ →
      embed' name = ⟨missing, .ok text⟩)
    (hr : expressions embed attributes body = ⟨missing, .ok text⟩) :
    expressions embed' attributes body = ⟨missing, .ok text⟩ := by
  induction body generalizing missing text with
  | nil => exact hr
  | cons first rest ih =>
    obtain ⟨m, s, n, t, hf, hl, hm, ht⟩ := Outcome.followedBy_eq_text_iff.1 hr
    refine Outcome.followedBy_eq_text_iff.2 ⟨m, s, n, t, ?_, ih hl, hm, ht⟩
    cases first with
    | inclusion name arguments => exact h name m s hf
    | _ => exact hf

/-- An included template that has a text keeps it, and what it noted, under a larger budget. -/
theorem included_of_le {exhausted exhausted' : String → RenderError} {units larger : Nat}
    (hb : units ≤ larger) {name : String}
    (hr : included group exhausted units name = ⟨missing, .ok text⟩) :
    included group exhausted' larger name = ⟨missing, .ok text⟩ := by
  induction units generalizing larger name missing text with
  | zero =>
    cases hl : group.lookup name with
    | none => rwa [included_of_missing hl] at hr ⊢
    | some definition =>
      rw [included_zero hl] at hr
      cases hr
  | succ units ih =>
    cases hl : group.lookup name with
    | none => rwa [included_of_missing hl] at hr ⊢
    | some definition =>
      obtain ⟨larger, rfl⟩ : ∃ n, larger = n + 1 := ⟨larger - 1, by omega⟩
      rw [included_succ hl] at hr ⊢
      exact expressions_of_ok (fun name m s hs => ih (by omega) hs) hr

/-- A rendering that has a text keeps it, and what it noted, under a larger budget. -/
theorem render_of_le (hb : budget limit? group ≤ budget larger? group)
    (hr : render group limit? attributes body = ⟨missing, .ok text⟩) :
    render group larger? attributes body = ⟨missing, .ok text⟩ :=
  expressions_of_ok (fun _ _ _ hs => included_of_le hb hs) hr

end Rendering

end TextTemplate
