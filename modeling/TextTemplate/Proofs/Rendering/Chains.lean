import TextTemplate.Proofs.Trees

/-!
# Chains of inclusions

An inclusion of a template that exists, an inclusion in the body of that template, and so on, make
a *chain*.  Templates that are missing are in no chain.  Chains of the same length are ordered by
the positions of their inclusions, from the outermost to the innermost: this is the order in which
rendering comes to them, from left to right and into each included template before what follows it.

Rendering under a limit stops exactly when there is a chain of one inclusion more than the limit
allows, and blames the last template of the first such chain
(`Rendering.includeLimit_iff_exists_chain`).  Attributes are trees of data here, which is what
adding values makes of them (`Template.areTrees_of_add`).
-/

namespace TextTemplate

namespace Rendering

/-- An inclusion of a chain: its position in the body it stands in, and the template it names. -/
structure Link where
  position : Nat
  name : String
deriving DecidableEq, Repr

/-- Inclusions of templates that exist, the first in the given body and each other one in the body
of the template before it. -/
inductive Chain (group : Group.Definitions) : List Expression → List Link → Prop
  | nil (body : List Expression) : Chain group body []
  | cons {body : List Expression} {position : Nat} {name : String} {arguments : List String}
      {definition : Definition} {chain : List Link} :
      body[position]? = some (.inclusion name arguments) →
      group.lookup name = some definition → Chain group definition.expressions chain →
      Chain group body (⟨position, name⟩ :: chain)

/-- The positions of the inclusions of a chain. -/
def positions (chain : List Link) : List Nat := chain.map Link.position

/-- Where the two chains part, the first one has the smaller position. -/
def Precedes (chain other : List Link) : Prop :=
  List.Lex (· < ·) (positions chain) (positions other)

/-- No chain of the same length comes before this one. -/
def IsFirst (group : Group.Definitions) (body : List Expression) (chain : List Link) : Prop :=
  Chain group body chain ∧
    ∀ other, Chain group body other → other.length = chain.length → ¬ Precedes other chain

variable {group : Group.Definitions} {body rest : List Expression} {e : Expression}
  {link : Link} {chain other : List Link} {budget : Nat}

/-! ### The order of chains -/

@[simp] theorem not_precedes_nil : ¬ Precedes chain [] := List.not_lex_nil

@[simp] theorem precedes_cons_iff {link' : Link} : Precedes (link :: chain) (link' :: other) ↔
    link.position < link'.position ∨ link.position = link'.position ∧ Precedes chain other :=
  List.cons_lex_cons_iff

theorem positions_eq_of_not_precedes (h : ¬ Precedes other chain) (h' : ¬ Precedes chain other) :
    positions chain = positions other :=
  List.le_antisymm h h'

/-! ### Chains of a body and of its parts -/

theorem chain_cons_iff : Chain group body (link :: chain) ↔
    ∃ arguments definition, body[link.position]? = some (.inclusion link.name arguments) ∧
      group.lookup link.name = some definition ∧ Chain group definition.expressions chain := by
  constructor
  · rintro (_ | ⟨hb, hl, hc⟩)
    exact ⟨_, _, hb, hl, hc⟩
  · rintro ⟨arguments, definition, hb, hl, hc⟩
    exact .cons hb hl hc

/-- The first inclusion of a chain is the first expression of the body, or stands in what follows
it. -/
theorem chain_cons_cases (h : Chain group (e :: rest) (link :: chain)) :
    (Chain group [e] (link :: chain) ∧ link.position = 0) ∨
      ∃ position, link.position = position + 1 ∧
        Chain group rest (⟨position, link.name⟩ :: chain) := by
  obtain ⟨arguments, definition, hb, hl, hc⟩ := chain_cons_iff.1 h
  cases hp : link.position with
  | zero =>
    rw [hp] at hb
    exact .inl ⟨chain_cons_iff.2 ⟨arguments, definition, by rw [hp]; exact hb, hl, hc⟩, rfl⟩
  | succ position =>
    rw [hp] at hb
    exact .inr ⟨position, rfl, chain_cons_iff.2 ⟨arguments, definition, hb, hl, hc⟩⟩

theorem position_eq_zero_of_chain_singleton (h : Chain group [e] (link :: chain)) :
    link.position = 0 := by
  rcases chain_cons_cases h with ⟨-, hp⟩ | ⟨position, -, hc⟩
  · exact hp
  · obtain ⟨_, _, hb, -⟩ := chain_cons_iff.1 hc
    simp at hb

theorem chain_inclusion_iff {name : String} {arguments : List String} :
    Chain group [.inclusion name arguments] (link :: chain) ↔ link = ⟨0, name⟩ ∧
      ∃ definition, group.lookup name = some definition ∧
        Chain group definition.expressions chain := by
  constructor
  · intro h
    have hp := position_eq_zero_of_chain_singleton h
    obtain ⟨position, name'⟩ := link
    obtain ⟨_, definition, hb, hl, hc⟩ := chain_cons_iff.1 h
    obtain rfl : position = 0 := hp
    obtain ⟨rfl, -⟩ : name = name' ∧ _ := by simpa using hb
    exact ⟨rfl, definition, hl, hc⟩
  · rintro ⟨rfl, definition, hl, hc⟩
    exact .cons rfl hl hc

/-- The first expression of a chain's body is no inclusion, so no chain starts at it. -/
theorem chain_eq_nil_of_included?_eq_none (he : e.included? = none) (h : Chain group [e] chain) :
    chain = [] := by
  cases chain with
  | nil => rfl
  | cons link chain =>
    obtain ⟨arguments, definition, hb, -⟩ := chain_cons_iff.1 h
    rw [position_eq_zero_of_chain_singleton h] at hb
    obtain rfl : e = _ := by simpa using hb
    cases he

theorem chain_head (h : Chain group [e] (link :: chain)) :
    Chain group (e :: rest) (link :: chain) := by
  obtain ⟨arguments, definition, hb, hl, hc⟩ := chain_cons_iff.1 h
  have hp := position_eq_zero_of_chain_singleton h
  rw [hp] at hb
  exact chain_cons_iff.2 ⟨arguments, definition, by rw [hp]; exact hb, hl, hc⟩

theorem chain_tail {position : Nat} {name : String}
    (h : Chain group rest (⟨position, name⟩ :: chain)) :
    Chain group (e :: rest) (⟨position + 1, name⟩ :: chain) := by
  obtain ⟨arguments, definition, hb, hl, hc⟩ := chain_cons_iff.1 h
  exact chain_cons_iff.2 ⟨arguments, definition, hb, hl, hc⟩

/-- A chain is determined by its positions. -/
theorem Chain.eq_of_positions (h : Chain group body chain) (h' : Chain group body other)
    (hp : positions chain = positions other) : chain = other := by
  induction h generalizing other with
  | nil =>
    cases other with
    | nil => rfl
    | cons => simp [positions] at hp
  | cons hb hl _ ih =>
    cases h' with
    | nil => simp [positions] at hp
    | cons hb' hl' hc' =>
      simp only [positions, List.map_cons, List.cons.injEq] at hp
      obtain ⟨rfl, hp⟩ := hp
      obtain ⟨rfl, -⟩ : _ = _ ∧ _ = _ := by simpa [hb] using hb'
      obtain rfl : _ = _ := by simpa [hl] using hl'
      rw [ih hc' hp]

theorem IsFirst.unique (h : IsFirst group body chain) (h' : IsFirst group body other)
    (hl : other.length = chain.length) : chain = other :=
  h.1.eq_of_positions h'.1 (positions_eq_of_not_precedes (h.2 _ h'.1 hl) (h'.2 _ h.1 hl.symm))

/-! ### Rendering searches for the first chain -/

/-- What a result tells about the chains of `budget + 1` inclusions: a text, that there is none; a
failure, the last name of the first of them. -/
inductive Tells (group : Group.Definitions) (exhausted : String → RenderError) (budget : Nat)
    (body : List Expression) : Except RenderError String → Prop
  | none (s : String) (h : ∀ chain, Chain group body chain → chain.length ≠ budget + 1) :
      Tells group exhausted budget body (.ok s)
  | first (chain : List Link) (link : Link) (hl : chain.length = budget)
      (h : IsFirst group body (chain ++ [link])) :
      Tells group exhausted budget body (.error (exhausted link.name))

variable {exhausted : String → RenderError}

theorem length_ne_of_tail {n : Nat}
    (hh : ∀ chain, Chain group [e] chain → chain.length ≠ n + 1)
    (ht : ∀ chain, Chain group rest chain → chain.length ≠ n + 1) :
    ∀ chain, Chain group (e :: rest) chain → chain.length ≠ n + 1 := by
  rintro (_ | ⟨link, chain⟩) h
  · simp
  · rcases chain_cons_cases h with ⟨hc, -⟩ | ⟨position, -, hc⟩
    · exact hh _ hc
    · simpa using ht _ hc

theorem isFirst_head (h : IsFirst group [e] (link :: chain)) :
    IsFirst group (e :: rest) (link :: chain) := by
  have hp := position_eq_zero_of_chain_singleton h.1
  refine ⟨chain_head h.1, ?_⟩
  rintro (_ | ⟨link', other⟩) ho hl
  · simp at hl
  · rcases chain_cons_cases ho with ⟨hc, -⟩ | ⟨position, hp', -⟩
    · exact h.2 _ hc hl
    · simp [hp, hp']

theorem isFirst_tail {position : Nat} {name : String}
    (hh : ∀ other, Chain group [e] other → other.length ≠ chain.length + 1)
    (h : IsFirst group rest (⟨position, name⟩ :: chain)) :
    IsFirst group (e :: rest) (⟨position + 1, name⟩ :: chain) := by
  refine ⟨chain_tail h.1, ?_⟩
  rintro (_ | ⟨link, other⟩) ho hl
  · simp at hl
  · rcases chain_cons_cases ho with ⟨hc, -⟩ | ⟨position', hp, hc⟩
    · exact absurd hl (hh _ hc)
    · have := h.2 _ hc (by simpa using hl)
      simpa [hp] using this

/-- What the first expression tells and what the others tell make up what all of them tell, since
the others are only rendered when the first one has a text. -/
theorem Tells.cons {first later : Outcome} (hf : Tells group exhausted budget [e] first.result)
    (hr : Tells group exhausted budget rest later.result) :
    Tells group exhausted budget (e :: rest) (first.followedBy fun _ => later).result := by
  generalize hfr : first.result = result at hf
  cases hf with
  | none s hh =>
    -- no chain starts at the first expression: those of the others are one position further on
    rw [Outcome.followedBy_of_ok hfr]
    dsimp only
    generalize later.result = result at hr ⊢
    cases hr with
    | none t ht => exact .none _ (length_ne_of_tail hh ht)
    | first chain link hl h =>
      cases chain with
      | nil =>
        refine .first [] ⟨link.position + 1, link.name⟩ hl (isFirst_tail ?_ h)
        simpa [← hl] using hh
      | cons head chain =>
        refine .first (⟨head.position + 1, head.name⟩ :: chain) link hl (isFirst_tail ?_ h)
        simpa [← hl] using hh
  | first chain link hl h =>
    -- a chain that starts at the first expression precedes all that start later
    rw [Outcome.followedBy_of_error hfr]
    refine .first chain link hl ?_
    cases chain with
    | nil => exact isFirst_head h
    | cons head chain => exact isFirst_head h

/-- An inclusion tells what rendering the included template tells with one unit less. -/
theorem tells_inclusion {name : String} {arguments : List String}
    (ih : ∀ (definition : Definition) (later : Nat), later + 1 = budget →
      Tells group exhausted later definition.expressions
        (expressions (included group exhausted later) ∅ definition.expressions).result) :
    Tells group exhausted budget [.inclusion name arguments]
      (included group exhausted budget name).result := by
  cases hl : group.lookup name with
  | none =>
    rw [included_of_missing hl]
    refine .none "" ?_
    rintro (_ | ⟨link, chain⟩) hc
    · simp
    · obtain ⟨-, definition, hd, -⟩ := chain_inclusion_iff.1 hc
      simp [hl] at hd
  | some definition =>
    cases budget with
    | zero =>
      -- the inclusion itself is one too many
      rw [included_zero hl]
      refine .first [] ⟨0, name⟩ rfl ⟨.cons rfl hl (.nil _), ?_⟩
      rintro (_ | ⟨link, chain⟩) hc hlen
      · simp at hlen
      · simp [(chain_inclusion_iff.1 hc).1]
    | succ budget =>
      -- the chains are those of the included template with this inclusion in front
      rw [included_succ hl]
      have hi := ih definition budget rfl
      generalize (expressions _ ∅ definition.expressions).result = result at hi ⊢
      cases hi with
      | none s h =>
        refine .none s ?_
        rintro (_ | ⟨link, chain⟩) hc
        · simp
        · obtain ⟨-, definition', hd, hc⟩ := chain_inclusion_iff.1 hc
          obtain rfl : definition = definition' := by simpa [hl] using hd
          simpa using h chain hc
      | first chain link hlen h =>
        refine .first (⟨0, name⟩ :: chain) link (by simpa using hlen) ⟨.cons rfl hl h.1, ?_⟩
        rintro (_ | ⟨link', other⟩) hc ho
        · simp at ho
        · obtain ⟨rfl, definition', hd, hc⟩ := chain_inclusion_iff.1 hc
          obtain rfl : definition = definition' := by simpa [hl] using hd
          have := h.2 other hc (by simpa using ho)
          simpa using this

theorem tells_expression {attributes : Attributes} (ht : attributes.AreTrees)
    (ih : ∀ (definition : Definition) (later : Nat), later + 1 = budget →
      Tells group exhausted later definition.expressions
        (expressions (included group exhausted later) ∅ definition.expressions).result) :
    Tells group exhausted budget [e]
      (expression (included group exhausted budget) attributes e).result := by
  have hno : e.included? = none → ∀ chain, Chain group [e] chain → chain.length ≠ budget + 1 := by
    intro he chain hc
    simp [chain_eq_nil_of_included?_eq_none he hc]
  match e, hno with
  | .literal s, hno => exact .none s (hno rfl)
  | .attribute name, hno =>
    obtain ⟨s, hs⟩ := exists_showValue_eq_text ht name []
    rw [expression, hs]
    exact .none s (hno rfl)
  | .path name segments, hno =>
    obtain ⟨s, hs⟩ := exists_showValue_eq_text ht name segments
    rw [expression, hs]
    exact .none s (hno rfl)
  | .inclusion name arguments, _ => exact tells_inclusion ih

/-- **Rendering searches for the first chain** that its budget does not suffice for, and has a text
when there is none. -/
theorem tells_expressions {attributes : Attributes} (ht : attributes.AreTrees) :
    Tells group exhausted budget body
      (expressions (included group exhausted budget) attributes body).result := by
  induction budget using Nat.strongRecOn generalizing attributes body with
  | _ budget ih =>
    induction body with
    | nil =>
      refine .none "" ?_
      rintro (_ | ⟨link, chain⟩) hc
      · simp
      · obtain ⟨_, _, hb, -⟩ := chain_cons_iff.1 hc
        simp at hb
    | cons e rest ihr =>
      exact .cons (tells_expression ht fun _ later hb => ih later (by omega)
        Attributes.areTrees_empty) ihr

theorem tells_render {attributes : Attributes} (ht : attributes.AreTrees) (limit? : Option Int) :
    Tells group (Rendering.exhausted limit?) (Rendering.budget limit? group) body
      (render group limit? attributes body).result :=
  tells_expressions ht

/-! ### The limit on nested inclusions -/

/-- **Rendering under a limit fails exactly when a chain is longer than the limit allows**, and
blames the template at the end of the first chain that has one inclusion too many.  A negative
limit allows none, as zero does. -/
theorem includeLimit_iff_exists_chain (group : Group.Definitions) (body : List Expression)
    {attributes : Attributes} (ht : attributes.AreTrees) (limit : Int) :
    ((∃ name depth, (render group (some limit) attributes body).result =
        .error (.includeLimit name depth)) ↔
      ∃ chain, Chain group body chain ∧ (chain.length : Int) = max limit 0 + 1) ∧
    ∀ name depth, (render group (some limit) attributes body).result =
        .error (.includeLimit name depth) ↔
      depth = limit ∧ ∃ chain link, IsFirst group body (chain ++ [link]) ∧
        ((chain ++ [link]).length : Int) = max limit 0 + 1 ∧ link.name = name := by
  have hs : Tells group _ limit.toNat body _ := tells_render ht (some limit)
  generalize (render group (some limit) attributes body).result = result at hs ⊢
  cases hs with
  | none s h =>
    have hno : ∀ chain, Chain group body chain → (chain.length : Int) ≠ max limit 0 + 1 := by
      intro chain hc hl
      exact h chain hc (by omega)
    refine ⟨⟨by simp, fun ⟨chain, hc, hl⟩ => absurd hl (hno chain hc)⟩, fun name depth => ?_⟩
    exact ⟨by simp, fun ⟨_, chain, link, hf, hl, _⟩ => absurd hl (hno _ hf.1)⟩
  | first chain link hl h =>
    have hlen : ((chain ++ [link]).length : Int) = max limit 0 + 1 := by
      simp only [List.length_append, List.length_singleton]
      omega
    refine ⟨⟨fun _ => ⟨_, h.1, hlen⟩, fun _ => ⟨_, _, rfl⟩⟩, fun name depth => ⟨?_, ?_⟩⟩
    · intro he
      simp only [exhausted, Except.error.injEq, RenderError.includeLimit.injEq] at he
      exact ⟨he.2.symm, chain, link, h, hlen, he.1⟩
    · rintro ⟨rfl, chain', link', hf, hl', rfl⟩
      have heq := h.unique hf (by omega)
      obtain rfl : link = link' := by simpa using congrArg List.getLast? heq
      rfl

/-- Three templates include one another in a circle.  With one inclusion allowed, rendering fails
at the second one of the first chain; the missing template before it does not count. -/
theorem includeLimit_iff_exists_chain_of_cycle :
    let group : Group.Definitions :=
      [("a", ⟨"", [.inclusion "none" [], .inclusion "b" ["x"]], none⟩),
        ("b", ⟨"", [.literal "b", .inclusion "c" []], none⟩),
        ("c", ⟨"", [.inclusion "a" []], none⟩)]
    let body : List Expression :=
      [.literal "t", .inclusion "none" [], .attribute "x", .inclusion "a" ["x"], .inclusion "c" []]
    let attributes := (∅ : Attributes).insert "x" (.list [.text "v", .null])
    attributes.AreTrees ∧
      (∃ chain, Chain group body chain ∧ (chain.length : Int) = max 1 0 + 1) ∧
      ∃ chain link, IsFirst group body (chain ++ [link]) ∧
        ((chain ++ [link]).length : Int) = max 1 0 + 1 ∧ link.name = "b" := by
  intro group body attributes
  have ht : attributes.AreTrees := Attributes.areTrees_empty.insert "x" rfl
  have hr : (render group (some 1) attributes body).result = .error (.includeLimit "b" 1) := rfl
  exact ⟨ht, (includeLimit_iff_exists_chain group body ht 1).1.1 ⟨_, _, hr⟩,
    ((includeLimit_iff_exists_chain group body ht 1).2 "b" 1).1 hr |>.2⟩

end Rendering

end TextTemplate
