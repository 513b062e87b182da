import TextTemplate.Compile
import TextTemplate.Entries
import TextTemplate.Proofs.Group.Steps

/-!
# The grammar of groups

The grammar of group texts and of static declarations, over tokens:

* `Parameters`: names separated by commas, with or without a comma after the last one;
* `Declares`: one declaration `name(parameters) ::= literal`;
* `Sequence`: declarations, each with or without a semicolon after it;
* `DeclaresStatic`: a static declaration `pub static ref name { ... }`, with or without `pub`.

A name is an identifier that is no reserved word (`Reading.name?`).  What is read is exactly what
the grammar derives, as long as no two declarations have the same name
(`compile_eq_ok_iff_grammar`).
-/

namespace TextTemplate

namespace Group

open Reading (name? define)

/-- The tokens spell a list of parameters. -/
inductive Parameters : List Token → List String → Prop
  | nil : Parameters [] []
  | last {token : Token} {name : String} : name? token = some name → Parameters [token] [name]
  | cons {token comma : Token} {rest : List Token} {name : String} {names : List String} :
      name? token = some name → comma.kind = .comma → Parameters rest names →
      Parameters (token :: comma :: rest) (name :: names)

/-- The tokens spell a declaration of the template under the name. -/
inductive Declares : List Token → String × Definition → Prop
  | intro {nameToken opening closing separator equals literal : Token}
      {parameterTokens : List Token} {name : String} {parameters : List String}
      {expressions : List Expression} :
      name? nameToken = some name → opening.kind = .leftParen →
      Parameters parameterTokens parameters → closing.kind = .rightParen →
      separator.kind = .pathSeparator → equals.kind = .equals → literal.kind = .string →
      Body.scan literal.value.toList = .ok expressions →
      Declares (nameToken :: opening :: parameterTokens ++ [closing, separator, equals, literal])
        (name, ⟨literal.value, expressions, some (NameSet.ofList parameters)⟩)

/-- The tokens spell a semicolon, or there are none. -/
inductive OptionalSemicolon : List Token → Prop
  | absent : OptionalSemicolon []
  | present {token : Token} : token.kind = .semicolon → OptionalSemicolon [token]

/-- The tokens spell a sequence of declarations of these templates. -/
inductive Sequence : List Token → Definitions → Prop
  | nil : Sequence [] []
  | cons {tokens semicolon rest : List Token} {entry : String × Definition}
      {definitions : Definitions} : Declares tokens entry → OptionalSemicolon semicolon →
      Sequence rest definitions → Sequence (tokens ++ semicolon ++ rest) (entry :: definitions)

/-- The tokens spell the word `pub`, or there are none. -/
inductive OptionalPub : List Token → Bool → Prop
  | absent : OptionalPub [] false
  | present {token : Token} : StaticReading.isWord "pub" token = true → OptionalPub [token] true

/-- The tokens spell a static declaration, whose templates have distinct names. -/
inductive DeclaresStatic : List Token → StaticDeclaration → Prop
  | intro {pub inner : List Token} {static ref nameToken opening closing : Token}
      {isPublic : Bool} {name : String} {definitions : Definitions} :
      OptionalPub pub isPublic → StaticReading.isWord "static" static = true →
      StaticReading.isWord "ref" ref = true → name? nameToken = some name →
      opening.kind = .leftBrace → Sequence inner definitions →
      (Entries.keys definitions).Nodup → closing.kind = .rightBrace →
      DeclaresStatic (pub ++ static :: ref :: nameToken :: opening :: (inner ++ [closing]))
        ⟨name, isPublic, definitions⟩

theorem Declares.length_pos {tokens : List Token} {entry : String × Definition}
    (h : Declares tokens entry) : 0 < tokens.length := by
  cases h
  simp

namespace Reading

variable {before definitions : Definitions} {tokens : List Token} {name : String}
  {parameters : List String}

/-! ### One declaration -/

theorem reads_of_parameters {parameterTokens : List Token} {names : List String} {closing : Token}
    (h : Parameters parameterTokens names) (hc : closing.kind = .rightParen)
    (hr : Reads ⟨before, .closed name (parameters ++ names)⟩ tokens definitions) :
    Reads ⟨before, .opened name parameters⟩ (parameterTokens ++ closing :: tokens)
      definitions := by
  induction h generalizing parameters with
  | nil => exact .cons (.closeOpened hc) (by simpa using hr)
  | last hn => exact .cons (.parameter hn) (.cons (.closeListed hc) hr)
  | cons hn hk _ ih => exact .cons (.parameter hn) (.cons (.comma hk) (ih (by simpa using hr)))

theorem cases_of_reads_opened (h : Reads ⟨before, .opened name parameters⟩ tokens definitions) :
    ∃ token rest, tokens = token :: rest ∧
      (token.kind = .rightParen ∧ Reads ⟨before, .closed name parameters⟩ rest definitions ∨
        ∃ parameter, name? token = some parameter ∧
          Reads ⟨before, .listed name (parameters ++ [parameter])⟩ rest definitions) := by
  cases h with
  | nil hf => simp [isFinished] at hf
  | cons hs hr =>
    cases hs with
    | closeOpened hk => exact ⟨_, _, rfl, .inl ⟨hk, hr⟩⟩
    | parameter hn => exact ⟨_, _, rfl, .inr ⟨_, hn, hr⟩⟩

theorem cases_of_reads_listed (h : Reads ⟨before, .listed name parameters⟩ tokens definitions) :
    ∃ token rest, tokens = token :: rest ∧
      (token.kind = .rightParen ∧ Reads ⟨before, .closed name parameters⟩ rest definitions ∨
        token.kind = .comma ∧ Reads ⟨before, .opened name parameters⟩ rest definitions) := by
  cases h with
  | nil hf => simp [isFinished] at hf
  | cons hs hr =>
    cases hs with
    | closeListed hk => exact ⟨_, _, rfl, .inl ⟨hk, hr⟩⟩
    | comma hk => exact ⟨_, _, rfl, .inr ⟨hk, hr⟩⟩

/-- After an opening parenthesis or a comma, what is read begins with a list of parameters and a
closing parenthesis.  A name and the comma after it are two tokens, so the induction is on the
number of tokens. -/
theorem exists_parameters_of_reads
    (h : Reads ⟨before, .opened name parameters⟩ tokens definitions) :
    ∃ parameterTokens names closing rest, tokens = parameterTokens ++ closing :: rest ∧
      Parameters parameterTokens names ∧ closing.kind = .rightParen ∧
      Reads ⟨before, .closed name (parameters ++ names)⟩ rest definitions := by
  induction hn : tokens.length using Nat.strongRecOn generalizing tokens parameters with
  | _ n ih =>
    obtain ⟨token, rest, rfl, ⟨hk, hr⟩ | ⟨parameter, hp, hr⟩⟩ := cases_of_reads_opened h
    · exact ⟨[], [], token, rest, rfl, .nil, hk, by simpa using hr⟩
    · obtain ⟨next, later, rfl, ⟨hk, hr⟩ | ⟨hk, hr⟩⟩ := cases_of_reads_listed hr
      · -- the parenthesis closes right after the name
        exact ⟨[token], [parameter], next, later, rfl, .last hp, hk, hr⟩
      · -- what follows the comma is a list of parameters again, maybe an empty one
        obtain ⟨parameterTokens, names, closing, last, rfl, hps, hc, hr⟩ :=
          ih later.length (by simp at hn; omega) hr rfl
        exact ⟨token :: next :: parameterTokens, parameter :: names, closing, last, rfl,
          .cons hp hk hps, hc, by simpa using hr⟩

theorem reads_of_declares {declared : List Token} {entry : String × Definition}
    (h : Declares declared entry) (hl : before.lookup entry.1 = none)
    (hr : Reads ⟨before ++ [entry], .complete⟩ tokens definitions) :
    Reads ⟨before, .between⟩ (declared ++ tokens) definitions := by
  obtain @⟨_, _, _, _, _, literal, _, _, parameters, expressions, hn, ho, hp, hc, hs, he, hk, hb⟩ :=
    h
  have hd : define parameters literal = .ok _ := define_eq_ok_iff.2 ⟨expressions, hb, rfl⟩
  have hlater := Reads.cons (.pathSeparator hs) (.cons (.equals he) (.cons (.literal hk hd) hr))
  simpa using Reads.cons (.nameBetween hn hl) (.cons (.leftParen ho)
    (reads_of_parameters hp hc hlater))

theorem exists_literal_of_reads
    (h : Reads ⟨before, .closed name parameters⟩ tokens definitions) :
    ∃ separator equals literal definition rest, tokens = separator :: equals :: literal :: rest ∧
      separator.kind = .pathSeparator ∧ equals.kind = .equals ∧ literal.kind = .string ∧
      define parameters literal = .ok definition ∧
      Reads ⟨before ++ [(name, definition)], .complete⟩ rest definitions := by
  cases h with
  | nil hf => simp [isFinished] at hf
  | cons hs h =>
  cases hs with | pathSeparator hs =>
  cases h with
  | nil hf => simp [isFinished] at hf
  | cons he h =>
  cases he with | equals he =>
  cases h with
  | nil hf => simp [isFinished] at hf
  | cons hl h =>
  cases hl with | literal hk hd => exact ⟨_, _, _, _, _, rfl, hs, he, hk, hd, h⟩

/-- Between declarations, what is read is nothing, or begins with a declaration of a template that
is not yet there. -/
theorem cases_of_reads_between (h : Reads ⟨before, .between⟩ tokens definitions) :
    (tokens = [] ∧ definitions = before) ∨
      ∃ declared entry rest, tokens = declared ++ rest ∧ Declares declared entry ∧
        before.lookup entry.1 = none ∧ Reads ⟨before ++ [entry], .complete⟩ rest definitions := by
  cases h with
  | nil => exact .inl ⟨rfl, rfl⟩
  | cons hs h =>
  cases hs with | nameBetween hn hl =>
  cases h with
  | nil hf => simp [isFinished] at hf
  | cons ho h =>
  cases ho with | leftParen ho =>
  obtain ⟨parameterTokens, parameters, closing, rest, rfl, hp, hc, hr⟩ :=
    exists_parameters_of_reads h
  obtain ⟨separator, equals, literal, definition, later, rfl, hs, he, hk, hd, hr⟩ :=
    exists_literal_of_reads hr
  obtain ⟨expressions, hb, rfl⟩ := define_eq_ok_iff.1 hd
  refine .inr ⟨_, _, later, ?_, .intro hn ho hp hc hs he hk hb, hl, hr⟩
  simp

/-! ### Sequences of declarations -/

/-- After a declaration, a semicolon makes no difference. -/
theorem reads_complete_iff : Reads ⟨before, .complete⟩ tokens definitions ↔
    ∃ semicolon rest, tokens = semicolon ++ rest ∧ OptionalSemicolon semicolon ∧
      Reads ⟨before, .between⟩ rest definitions := by
  constructor
  · intro h
    cases h with
    | nil => exact ⟨[], [], rfl, .absent, .nil rfl⟩
    | cons hs hr =>
      cases hs with
      | nameComplete hn hl => exact ⟨[], _, rfl, .absent, .cons (.nameBetween hn hl) hr⟩
      | semicolon hk => exact ⟨[_], _, rfl, .present hk, hr⟩
  · rintro ⟨_, rest, rfl, ⟨⟩ | hk, hr⟩
    · cases hr with
      | nil => exact .nil rfl
      | cons hs hr =>
        cases hs with
        | nameBetween hn hl => exact .cons (.nameComplete hn hl) hr
    · exact .cons (.semicolon hk) hr

/-- **What is read is what the grammar derives**, as long as the names are distinct. -/
theorem reads_iff_sequence (hd : (Entries.keys before).Nodup) :
    Reads ⟨before, .between⟩ tokens definitions ↔
      ∃ added, Sequence tokens added ∧ definitions = before ++ added ∧
        (Entries.keys definitions).Nodup := by
  constructor
  · -- one declaration is split off at a time, so the induction is on the number of tokens
    intro h
    induction hn : tokens.length using Nat.strongRecOn generalizing tokens before with
    | _ n ih =>
      rcases cases_of_reads_between h with
        ⟨rfl, rfl⟩ | ⟨declared, entry, rest, rfl, hdec, hl, hr⟩
      · exact ⟨[], .nil, by simp, hd⟩
      · obtain ⟨semicolon, later, rfl, hs, hr⟩ := reads_complete_iff.1 hr
        have hd' : (Entries.keys (before ++ [entry])).Nodup := by
          exact Entries.nodup_keys_append_singleton.2 ⟨hd, Entries.lookup_eq_none_iff.1 hl⟩
        have hlt : later.length < n := by
          have := hdec.length_pos
          simp only [List.length_append] at hn
          omega
        obtain ⟨added, hseq, rfl, hnodup⟩ := ih later.length hlt hd' hr rfl
        exact ⟨entry :: added, by simpa using Sequence.cons hdec hs hseq, by simp, hnodup⟩
  · rintro ⟨added, h, rfl, hd'⟩
    induction h generalizing before with
    | nil =>
      rw [List.append_nil]
      exact .nil rfl
    | @cons declared semicolon rest entry added hdec hs _ ih =>
      -- the entry moves to the declarations before, which keep distinct names
      have happ : before ++ entry :: added = before ++ [entry] ++ added := by simp
      rw [happ] at hd' ⊢
      have hnew : (Entries.keys (before ++ [entry])).Nodup := by
        rw [Entries.keys_append] at hd'
        exact (List.nodup_append.1 hd').1
      have hl := Entries.lookup_eq_none_iff.2 (Entries.nodup_keys_append_singleton.1 hnew).2
      rw [List.append_assoc]
      exact reads_of_declares hdec hl (reads_complete_iff.2 ⟨_, _, rfl, hs, ih hnew hd'⟩)

theorem reads_start_iff : Reads start tokens definitions ↔
    Sequence tokens definitions ∧ (Entries.keys definitions).Nodup := by
  have hd : (Entries.keys ([] : Definitions)).Nodup := List.nodup_nil
  rw [start, reads_iff_sequence hd]
  constructor
  · rintro ⟨added, h, rfl, hd⟩
    exact ⟨h, hd⟩
  · rintro ⟨h, hd⟩
    exact ⟨definitions, h, rfl, hd⟩

end Reading

/-! ### Static declarations -/

namespace StaticReading

variable {isPublic : Bool} {name : String} {last : Text.Extent} {tokens : List Token}
  {declaration : StaticDeclaration}

/-- What follows the word `static`. -/
theorem run_fixed_eq_ok_iff : (fixed isPublic).run last tokens = .ok declaration ↔
    ∃ ref nameToken opening inner closing name definitions,
      tokens = ref :: nameToken :: opening :: (inner ++ [closing]) ∧ isWord "ref" ref = true ∧
      name? nameToken = some name ∧ opening.kind = .leftBrace ∧ Sequence inner definitions ∧
      (Entries.keys definitions).Nodup ∧ closing.kind = .rightBrace ∧
      declaration = ⟨name, isPublic, definitions⟩ := by
  constructor
  · intro h
    cases tokens with
    | nil => cases h
    | cons ref tokens =>
    obtain ⟨_, hs, h⟩ := run_cons_eq_ok_iff.1 h
    obtain ⟨hr, rfl⟩ := step_fixed_eq_ok_iff.1 hs
    cases tokens with
    | nil => cases h
    | cons nameToken tokens =>
    obtain ⟨_, hs, h⟩ := run_cons_eq_ok_iff.1 h
    obtain ⟨name, hn, rfl⟩ := step_referenced_eq_ok_iff.1 hs
    cases tokens with
    | nil => cases h
    | cons opening tokens =>
    obtain ⟨_, hs, h⟩ := run_cons_eq_ok_iff.1 h
    obtain ⟨ho, rfl⟩ := step_named_eq_ok_iff.1 hs
    obtain ⟨inner, closing, definitions, rfl, hi, hk, rfl⟩ := run_inside_eq_ok_iff.1 h
    obtain ⟨hseq, hd⟩ := Reading.reads_start_iff.1 hi
    exact ⟨ref, nameToken, opening, inner, closing, name, definitions, rfl, hr, hn, ho, hseq, hd,
      hk, rfl⟩
  · rintro ⟨ref, nameToken, opening, inner, closing, name, definitions, rfl, hr, hn, ho, hseq, hd,
      hk, rfl⟩
    refine run_cons_eq_ok_iff.2 ⟨_, step_fixed_eq_ok_iff.2 ⟨hr, rfl⟩, ?_⟩
    refine run_cons_eq_ok_iff.2 ⟨_, step_referenced_eq_ok_iff.2 ⟨_, hn, rfl⟩, ?_⟩
    refine run_cons_eq_ok_iff.2 ⟨_, step_named_eq_ok_iff.2 ⟨ho, rfl⟩, ?_⟩
    exact run_inside_eq_ok_iff.2 ⟨_, _, _, rfl, Reading.reads_start_iff.2 ⟨hseq, hd⟩, hk, rfl⟩

/-- What a static declaration begins with. -/
theorem run_start_eq_ok_iff_fixed : start.run last tokens = .ok declaration ↔
    ∃ pub isPublic static rest, tokens = pub ++ static :: rest ∧ OptionalPub pub isPublic ∧
      isWord "static" static = true ∧
      (fixed isPublic).run static.extent rest = .ok declaration := by
  constructor
  · intro h
    cases tokens with
    | nil => cases h
    | cons first tokens =>
    obtain ⟨_, hs, h⟩ := run_cons_eq_ok_iff.1 h
    rcases step_start_eq_ok_iff.1 hs with ⟨hp, rfl⟩ | ⟨hw, rfl⟩
    · cases tokens with
      | nil => cases h
      | cons second tokens =>
      obtain ⟨_, hs, h⟩ := run_cons_eq_ok_iff.1 h
      obtain ⟨hw, rfl⟩ := step_published_eq_ok_iff.1 hs
      exact ⟨[first], true, second, tokens, rfl, .present hp, hw, h⟩
    · exact ⟨[], false, first, tokens, rfl, .absent, hw, h⟩
  · rintro ⟨_, _, static, rest, rfl, ⟨⟩ | hp, hw, h⟩
    · exact run_cons_eq_ok_iff.2 ⟨_, step_start_eq_ok_iff.2 (.inr ⟨hw, rfl⟩), h⟩
    · refine run_cons_eq_ok_iff.2 ⟨_, step_start_eq_ok_iff.2 (.inl ⟨hp, rfl⟩), ?_⟩
      exact run_cons_eq_ok_iff.2 ⟨_, step_published_eq_ok_iff.2 ⟨hw, rfl⟩, h⟩

theorem run_start_eq_ok_iff :
    start.run last tokens = .ok declaration ↔ DeclaresStatic tokens declaration := by
  rw [run_start_eq_ok_iff_fixed]
  constructor
  · rintro ⟨pub, isPublic, static, rest, rfl, hp, hw, h⟩
    obtain ⟨ref, nameToken, opening, inner, closing, name, definitions, rfl, hr, hn, ho, hseq, hd,
      hk, rfl⟩ := run_fixed_eq_ok_iff.1 h
    exact .intro hp hw hr hn ho hseq hd hk
  · rintro ⟨hp, hw, hr, hn, ho, hseq, hd, hk⟩
    exact ⟨_, _, _, _, rfl, hp, hw, run_fixed_eq_ok_iff.2
      ⟨_, _, _, _, _, _, _, rfl, hr, hn, ho, hseq, hd, hk, rfl⟩⟩

end StaticReading

/-! ### Texts -/

theorem readDefinitions_eq_ok_iff {source : Text.Source} {definitions : Definitions} :
    readDefinitions source = .ok definitions ↔ ∃ spelt, tokens source = .ok spelt ∧
      Sequence spelt definitions ∧ (Entries.keys definitions).Nodup := by
  unfold readDefinitions
  cases tokens source with
  | error fault => simp
  | ok spelt =>
    simp only [Except.ok.injEq, exists_eq_left']
    exact Reading.run_eq_ok_iff.trans Reading.reads_start_iff

theorem readStatic_eq_ok_iff {source : Text.Source} {declaration : StaticDeclaration} :
    readStatic source = .ok declaration ↔ ∃ spelt, tokens source = .ok spelt ∧
      DeclaresStatic spelt declaration := by
  unfold readStatic
  cases tokens source with
  | error fault => simp
  | ok spelt =>
    simp only [Except.ok.injEq, exists_eq_left']
    exact StaticReading.run_start_eq_ok_iff

theorem compileDefinitions_eq_ok_iff {text : String} {definitions : Definitions} :
    compileDefinitions text = .ok definitions ↔
      readDefinitions (Text.Source.ofString text) = .ok definitions := by
  unfold compileDefinitions
  dsimp only
  cases readDefinitions (Text.Source.ofString text) <;> simp

theorem compileStatic_eq_ok_iff {text : String} {declaration : StaticDeclaration} :
    compileStatic text = .ok declaration ↔
      readStatic (Text.Source.ofString text) = .ok declaration := by
  unfold compileStatic
  dsimp only
  cases readStatic (Text.Source.ofString text) <;> simp

/-- **What compiles is exactly what the grammar derives.**  A group is a text whose tokens spell a
sequence of declarations with distinct names, and a static declaration is one whose tokens spell a
static declaration; the templates, their order and parameters, and the header are those that are
spelt. -/
theorem compile_eq_ok_iff_grammar (text : String) :
    (∀ definitions, compileDefinitions text = .ok definitions ↔
      ∃ spelt, tokens (Text.Source.ofString text) = .ok spelt ∧
        Sequence spelt definitions ∧ (Entries.keys definitions).Nodup) ∧
    (∀ declaration, compileStatic text = .ok declaration ↔
      ∃ spelt, tokens (Text.Source.ofString text) = .ok spelt ∧
        DeclaresStatic spelt declaration) := by
  constructor
  · intro definitions
    rw [compileDefinitions_eq_ok_iff, readDefinitions_eq_ok_iff]
  · intro declaration
    rw [compileStatic_eq_ok_iff, readStatic_eq_ok_iff]

end Group

end TextTemplate
