import TextTemplate.Group.Declaration
import TextTemplate.Proofs.Except

/-!
# What one token does to a reading

`Reading.Step` lists the ways in which a token takes a reading of declarations further, with all
that is asked of the token.  `Reading.step_eq_ok_iff` says that there are no others, and
`Reading.run_eq_ok_iff` that a token list is read by such steps, to a place where declarations may
end (`Reading.Reads`).  A static declaration reads its inner tokens in the same way
(`StaticReading.run_inside_eq_ok_iff`).
-/

namespace TextTemplate

namespace Group

namespace Reading

/-- The token takes the first reading to the second one. -/
inductive Step : Reading → Token → Reading → Prop
  | nameBetween {definitions : Definitions} {token : Token} {name : String} :
      name? token = some name → definitions.lookup name = none →
      Step ⟨definitions, .between⟩ token ⟨definitions, .named name⟩
  | nameComplete {definitions : Definitions} {token : Token} {name : String} :
      name? token = some name → definitions.lookup name = none →
      Step ⟨definitions, .complete⟩ token ⟨definitions, .named name⟩
  | semicolon {definitions : Definitions} {token : Token} : token.kind = .semicolon →
      Step ⟨definitions, .complete⟩ token ⟨definitions, .between⟩
  | leftParen {definitions : Definitions} {token : Token} {name : String} :
      token.kind = .leftParen → Step ⟨definitions, .named name⟩ token ⟨definitions, .opened name []⟩
  | parameter {definitions : Definitions} {token : Token} {name parameter : String}
      {parameters : List String} : name? token = some parameter →
      Step ⟨definitions, .opened name parameters⟩ token
        ⟨definitions, .listed name (parameters ++ [parameter])⟩
  | comma {definitions : Definitions} {token : Token} {name : String} {parameters : List String} :
      token.kind = .comma →
      Step ⟨definitions, .listed name parameters⟩ token ⟨definitions, .opened name parameters⟩
  | closeOpened {definitions : Definitions} {token : Token} {name : String}
      {parameters : List String} : token.kind = .rightParen →
      Step ⟨definitions, .opened name parameters⟩ token ⟨definitions, .closed name parameters⟩
  | closeListed {definitions : Definitions} {token : Token} {name : String}
      {parameters : List String} : token.kind = .rightParen →
      Step ⟨definitions, .listed name parameters⟩ token ⟨definitions, .closed name parameters⟩
  | pathSeparator {definitions : Definitions} {token : Token} {name : String}
      {parameters : List String} : token.kind = .pathSeparator →
      Step ⟨definitions, .closed name parameters⟩ token ⟨definitions, .separated name parameters⟩
  | equals {definitions : Definitions} {token : Token} {name : String}
      {parameters : List String} : token.kind = .equals →
      Step ⟨definitions, .separated name parameters⟩ token ⟨definitions, .assigned name parameters⟩
  | literal {definitions : Definitions} {token : Token} {name : String} {parameters : List String}
      {definition : Definition} : token.kind = .string →
      define parameters token = .ok definition →
      Step ⟨definitions, .assigned name parameters⟩ token
        ⟨definitions ++ [(name, definition)], .complete⟩

variable {reading next : Reading} {token : Token} {rest : List Token}

theorem name?_eq_some_iff {name : String} : name? token = some name ↔
    token.kind = .identifier ∧ isReserved name = false ∧ token.value = name := by
  unfold name?
  split <;> grind

theorem define_eq_ok_iff {parameters : List String} {definition : Definition} :
    define parameters token = .ok definition ↔ ∃ expressions,
      Body.scan token.value.toList = .ok expressions ∧
      definition = ⟨token.value, expressions, some (NameSet.ofList parameters)⟩ := by
  unfold define
  cases Body.scan token.value.toList <;> simp [eq_comm]

theorem startDeclaration_eq_ok_iff : reading.startDeclaration token rest = .ok next ↔
    ∃ name, name? token = some name ∧ reading.definitions.lookup name = none ∧
      next = ⟨reading.definitions, .named name⟩ := by
  unfold startDeclaration
  split
  · next hn => simp [hn]
  · next name hn =>
    simp only [hn, Option.some.injEq, exists_eq_left']
    cases reading.definitions.lookup name <;> simp [eq_comm]

theorem step_eq_ok_iff : reading.step token rest = .ok next ↔ Step reading token next := by
  constructor
  · intro h
    obtain ⟨definitions, progress⟩ := reading
    unfold step at h
    dsimp only at h
    split at h
    · obtain ⟨name, hn, hl, rfl⟩ := startDeclaration_eq_ok_iff.1 h
      exact .nameBetween hn hl
    · next hk => cases h; exact .semicolon hk
    · obtain ⟨name, hn, hl, rfl⟩ := startDeclaration_eq_ok_iff.1 h
      exact .nameComplete hn hl
    · next hk => cases h; exact .leftParen hk
    · next hk => cases h; exact .closeOpened hk
    · split at h
      · cases h
      · next hn => cases h; exact .parameter hn
    · next hk => cases h; exact .closeListed hk
    · next hk => cases h; exact .comma hk
    · next hk => cases h; exact .pathSeparator hk
    · next hk => cases h; exact .equals hk
    · next hk =>
      obtain ⟨definition, hd, rfl⟩ := Except.map_eq_ok_iff.1 h
      exact .literal hk hd
    · cases h
  · intro h
    cases h with
    | nameBetween hn hl => exact startDeclaration_eq_ok_iff.2 ⟨_, hn, hl, rfl⟩
    | nameComplete hn hl =>
      simp only [step, (name?_eq_some_iff.1 hn).1]
      exact startDeclaration_eq_ok_iff.2 ⟨_, hn, hl, rfl⟩
    | semicolon hk | leftParen hk | comma hk | closeOpened hk | closeListed hk | pathSeparator hk
    | equals hk => simp [step, hk]
    | parameter hn => simp [step, (name?_eq_some_iff.1 hn).1, hn]
    | literal hk hd => simp [step, hk, hd, Except.map]

/-- The tokens take the reading, step by step, to a place where declarations may end and to these
definitions. -/
inductive Reads : Reading → List Token → Definitions → Prop
  | nil {reading : Reading} : reading.isFinished = true → Reads reading [] reading.definitions
  | cons {reading next : Reading} {token : Token} {tokens : List Token}
      {definitions : Definitions} : Step reading token next → Reads next tokens definitions →
      Reads reading (token :: tokens) definitions

theorem run_eq_ok_iff {last : Text.Extent} {tokens : List Token} {definitions : Definitions} :
    reading.run last tokens = .ok definitions ↔ Reads reading tokens definitions := by
  induction tokens generalizing reading last with
  | nil =>
    unfold run
    constructor
    · intro h
      split at h
      · next hf => cases h; exact .nil hf
      · cases h
    · rintro ⟨hf⟩
      rw [if_pos hf]
  | cons token tokens ih =>
    unfold run
    constructor
    · intro h
      split at h
      · cases h
      · next next hs => exact .cons (step_eq_ok_iff.1 hs) (ih.1 h)
    · rintro (_ | ⟨hs, hr⟩)
      rw [step_eq_ok_iff.2 hs]
      exact ih.2 hr

/-- Where declarations may end, a closing brace does not go on with them. -/
theorem Step.kind_ne_rightBrace (h : Step reading token next) (hf : reading.isFinished = true) :
    token.kind ≠ .rightBrace := by
  cases h with
  | nameBetween hn | nameComplete hn => simp [(name?_eq_some_iff.1 hn).1]
  | semicolon hk => simp [hk]
  | _ => simp [isFinished] at hf

end Reading

namespace StaticReading

open Reading (name? step_eq_ok_iff)

section

variable {reading next : StaticReading} {token : Token} {rest : List Token} {isPublic : Bool}
  {name : String} {declaration : StaticDeclaration} {last : Text.Extent}

theorem run_cons_eq_ok_iff : reading.run last (token :: rest) = .ok declaration ↔
    ∃ next, reading.step token rest = .ok next ∧ next.run token.extent rest = .ok declaration := by
  rw [run]
  cases reading.step token rest <;> simp

theorem isWord_iff {word : String} :
    isWord word token = true ↔ token.kind = .identifier ∧ token.value = word := by
  simp [isWord]

theorem step_start_eq_ok_iff : start.step token rest = .ok next ↔
    isWord "pub" token = true ∧ next = published ∨
      isWord "static" token = true ∧ next = fixed false := by
  have hne : isWord "pub" token = true → ¬ isWord "static" token = true := by
    simp +contextual [isWord_iff]
  unfold step
  split <;> grind

theorem step_published_eq_ok_iff : published.step token rest = .ok next ↔
    isWord "static" token = true ∧ next = fixed true := by
  simp only [step]
  split <;> grind

theorem step_fixed_eq_ok_iff : (fixed isPublic).step token rest = .ok next ↔
    isWord "ref" token = true ∧ next = referenced isPublic := by
  simp only [step]
  split <;> grind

theorem step_referenced_eq_ok_iff : (referenced isPublic).step token rest = .ok next ↔
    ∃ name, name? token = some name ∧ next = named isPublic name := by
  simp only [step]
  split <;> grind

theorem step_named_eq_ok_iff : (named isPublic name).step token rest = .ok next ↔
    token.kind = .leftBrace ∧ next = inside isPublic name Reading.start := by
  simp only [step]
  split <;> grind

end

theorem run_complete_eq_ok_iff {declaration final : StaticDeclaration} {last : Text.Extent}
    {tokens : List Token} :
    (complete declaration).run last tokens = .ok final ↔ tokens = [] ∧ declaration = final := by
  cases tokens with
  | nil => simp [run, finish]
  | cons token tokens => simp [run, step]

/-- The tokens inside a static declaration are those of a sequence of declarations, up to a closing
brace, which is the last token. -/
theorem run_inside_eq_ok_iff {isPublic : Bool} {name : String} {reading : Reading}
    {last : Text.Extent} {tokens : List Token} {declaration : StaticDeclaration} :
    (inside isPublic name reading).run last tokens = .ok declaration ↔
      ∃ inner brace definitions, tokens = inner ++ [brace] ∧ reading.Reads inner definitions ∧
        brace.kind = .rightBrace ∧ declaration = ⟨name, isPublic, definitions⟩ := by
  induction tokens generalizing reading last with
  | nil => simp [run, finish]
  | cons token tokens ih =>
    by_cases hb : reading.isFinished = true ∧ token.kind = .rightBrace
    · -- the brace ends the declarations, and nothing may follow it
      have hs : (inside isPublic name reading).step token tokens =
          .ok (complete ⟨name, isPublic, reading.definitions⟩) := by
        simp [step, hb]
      rw [run, hs]
      dsimp only
      rw [run_complete_eq_ok_iff]
      constructor
      · rintro ⟨rfl, rfl⟩
        exact ⟨[], token, _, rfl, .nil hb.1, hb.2, rfl⟩
      · rintro ⟨inner, brace, definitions, ht, hr, -, rfl⟩
        cases hr with
        | nil => simp_all
        | cons hs =>
          obtain ⟨rfl, -⟩ := List.cons.inj ht
          exact absurd hb.2 (hs.kind_ne_rightBrace hb.1)
    · -- any other token is read as one of the declarations
      have hs : (inside isPublic name reading).step token tokens =
          (reading.step token tokens).map (inside isPublic name) := by
        simp only [step, if_neg hb]
      rw [run, hs]
      constructor
      · intro h
        cases hn : reading.step token tokens with
        | error fault => simp [hn, Except.map] at h
        | ok next =>
          rw [hn] at h
          obtain ⟨inner, brace, definitions, rfl, hr, hk, rfl⟩ := ih.1 h
          exact ⟨token :: inner, brace, definitions, rfl, .cons (step_eq_ok_iff.1 hn) hr, hk, rfl⟩
      · rintro ⟨inner, brace, definitions, ht, hr, hk, rfl⟩
        cases hr with
        | nil hf => simp_all
        | cons hn hr =>
          obtain ⟨rfl, rfl⟩ := List.cons.inj ht
          rw [step_eq_ok_iff.2 hn]
          exact ih.2 ⟨_, brace, definitions, rfl, hr, hk, rfl⟩

end StaticReading

end Group

end TextTemplate
