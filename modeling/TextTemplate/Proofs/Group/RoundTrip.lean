import TextTemplate.Template
import TextTemplate.Proofs.Group.Lexemes
import TextTemplate.Proofs.Group.Grammar

/-!
# Spelling and reading groups

A `Written` declaration is one that can be spelt, together with the choices that do not matter to
its meaning: how its body is delimited, and whether a comma or a semicolon follows.

* `sequence_of_map_eq`: tokens of the right kinds and values spell the declarations;
* `Nesting.check_of_sequence`: the delimiters of declarations are nested;
* `compileGroup_spell`: compiling what was spelt gives the declarations back.
-/

namespace TextTemplate

namespace Group

open Reading (name?)

/-- An identifier that is no reserved word. -/
def IsName (name : String) : Prop :=
  Text.isIdentifier name.toList = true ∧ isReserved name = false

instance (name : String) : Decidable (IsName name) := inferInstanceAs (Decidable (_ ∧ _))

/-- A declaration that can be spelt. -/
structure Written where
  name : String
  parameters : List String
  body : String
  expressions : List Expression
  form : Form
  /-- Whether a comma follows the last parameter, if there are any. -/
  hasComma : Bool
  /-- Whether a semicolon follows the declaration. -/
  hasSemicolon : Bool
  isName : IsName name
  areNames : ∀ parameter ∈ parameters, IsName parameter
  scanned : Body.scan body.toList = .ok expressions
  fits : form.Fits body.toList

/-- The lexemes of a list of parameters. -/
def parameterLexemes (hasComma : Bool) : List String → List Lexeme
  | [] => []
  | [name] => if hasComma then [.word name, .mark ','] else [.word name]
  | name :: next :: names =>
    .word name :: .mark ',' :: parameterLexemes hasComma (next :: names)

namespace Written

/-- The lexemes of the semicolon, if one follows. -/
def semicolonLexemes (written : Written) : List Lexeme :=
  if written.hasSemicolon then [.mark ';'] else []

/-- The lexemes of a declaration. -/
def lexemes (written : Written) : List Lexeme :=
  .word written.name :: .mark '(' :: parameterLexemes written.hasComma written.parameters ++
    [.mark ')', .separator, .mark '=', .literal written.form written.body] ++
    written.semicolonLexemes

/-- The template of a declaration under its name. -/
def entry (written : Written) : String × Definition :=
  (written.name,
    ⟨written.body, written.expressions, some (NameSet.ofList written.parameters)⟩)

end Written

/-! ### The lexemes can be spelt -/

theorem spellable_of_mem_parameterLexemes {hasComma : Bool} {names : List String}
    (h : ∀ name ∈ names, IsName name) :
    ∀ lexeme ∈ parameterLexemes hasComma names, lexeme.Spellable := by
  have hcomma : (Lexeme.mark ',').Spellable := by
    simp [Lexeme.Spellable, marks]
  fun_induction parameterLexemes hasComma names with
  | case1 => simp
  | case2 name hc =>
    have hname : (Lexeme.word name).Spellable := (h name List.mem_cons_self).1
    simp [hname, hcomma]
  | case3 name hc =>
    have hname : (Lexeme.word name).Spellable := (h name List.mem_cons_self).1
    simp [hname]
  | case4 name next names ih =>
    obtain ⟨hname, hnames⟩ := List.forall_mem_cons.1 h
    have hword : (Lexeme.word name).Spellable := hname.1
    exact List.forall_mem_cons.2 ⟨hword, List.forall_mem_cons.2 ⟨hcomma, ih hnames⟩⟩

theorem Written.spellable (written : Written) :
    ∀ lexeme ∈ written.lexemes, lexeme.Spellable := by
  have hname : (Lexeme.word written.name).Spellable := written.isName.1
  have hliteral : (Lexeme.literal written.form written.body).Spellable := written.fits
  have hparameters : ∀ lexeme ∈ parameterLexemes written.hasComma written.parameters,
      lexeme.Spellable := spellable_of_mem_parameterLexemes written.areNames
  have hsemicolon : ∀ lexeme ∈ written.semicolonLexemes, lexeme.Spellable := by
    unfold Written.semicolonLexemes
    split <;> simp [Lexeme.Spellable, marks]
  intro lexeme hl
  simp only [lexemes, List.mem_append, List.mem_cons, List.not_mem_nil, or_false] at hl
  rcases hl with ((rfl | rfl | hl) | rfl | rfl | rfl | rfl) | hl
  · exact hname
  · simp [Lexeme.Spellable, marks]
  · exact hparameters _ hl
  · simp [Lexeme.Spellable, marks]
  · trivial
  · simp [Lexeme.Spellable, marks]
  · exact hliteral
  · exact hsemicolon _ hl

theorem wordsEnd_parameterLexemes {hasComma : Bool} {names : List String} {c : Char}
    {lexemes : List Lexeme} (h : WordsEnd lexemes) :
    WordsEnd (parameterLexemes hasComma names ++ .mark c :: lexemes) := by
  fun_induction parameterLexemes hasComma names with
  | case1 => exact h
  | case2 => exact ⟨⟨',', rfl⟩, h⟩
  | case3 => exact ⟨⟨c, rfl⟩, h⟩
  | case4 _ _ _ ih => exact ⟨⟨',', rfl⟩, ih⟩

theorem Written.wordsEnd (written : Written) {lexemes : List Lexeme} (h : WordsEnd lexemes) :
    WordsEnd (written.lexemes ++ lexemes) := by
  have hsemicolon : WordsEnd (written.semicolonLexemes ++ lexemes) := by
    unfold Written.semicolonLexemes
    split <;> exact h
  simp only [Written.lexemes, List.append_assoc, List.cons_append, List.nil_append]
  exact ⟨⟨'(', rfl⟩, wordsEnd_parameterLexemes hsemicolon⟩

/-! ### The tokens spell the declarations -/

theorem kind_eq_of_kindAndValue {token : Token} {lexeme : Lexeme}
    (h : token.kindAndValue = lexeme.kindAndValue) : token.kind = lexeme.kindAndValue.1 :=
  congrArg Prod.fst h

theorem name?_eq_some_of_kindAndValue {token : Token} {name : String} (hn : IsName name)
    (h : token.kindAndValue = (Lexeme.word name).kindAndValue) : name? token = some name := by
  obtain ⟨hk, hv⟩ : token.kind = .identifier ∧ token.value = name := Prod.mk.inj h
  exact Reading.name?_eq_some_iff.2 ⟨hk, hv ▸ hn.2, hv⟩

theorem parameters_of_map_eq {hasComma : Bool} {names : List String} {tokens : List Token}
    (hn : ∀ name ∈ names, IsName name)
    (h : tokens.map Token.kindAndValue =
      (parameterLexemes hasComma names).map Lexeme.kindAndValue) :
    Parameters tokens names := by
  fun_induction parameterLexemes hasComma names generalizing tokens with
  | case1 =>
    obtain rfl : tokens = [] := by simpa using h
    exact .nil
  | case2 name hc =>
    obtain ⟨token, _, rfl, ht, h⟩ := List.map_eq_cons_iff.1 h
    obtain ⟨comma, _, rfl, hcomma, h⟩ := List.map_eq_cons_iff.1 h
    obtain rfl := List.map_eq_nil_iff.1 h
    have hname := name?_eq_some_of_kindAndValue (hn name List.mem_cons_self) ht
    exact .cons hname (kind_eq_of_kindAndValue hcomma) .nil
  | case3 name hc =>
    obtain ⟨token, _, rfl, ht, h⟩ := List.map_eq_cons_iff.1 h
    obtain rfl := List.map_eq_nil_iff.1 h
    exact .last (name?_eq_some_of_kindAndValue (hn name List.mem_cons_self) ht)
  | case4 name next names ih =>
    obtain ⟨hname, hnames⟩ := List.forall_mem_cons.1 hn
    obtain ⟨token, _, rfl, ht, h⟩ := List.map_eq_cons_iff.1 h
    obtain ⟨comma, rest, rfl, hcomma, h⟩ := List.map_eq_cons_iff.1 h
    exact .cons (name?_eq_some_of_kindAndValue hname ht) (kind_eq_of_kindAndValue hcomma)
      (ih hnames h)

theorem Written.exists_declares (written : Written) {tokens : List Token}
    (h : tokens.map Token.kindAndValue = written.lexemes.map Lexeme.kindAndValue) :
    ∃ declared semicolon, tokens = declared ++ semicolon ∧ Declares declared written.entry ∧
      OptionalSemicolon semicolon := by
  rw [lexemes, List.map_append, List.map_append] at h
  obtain ⟨declared, semicolon, rfl, hd, hs⟩ := List.map_eq_append_iff.1 h
  refine ⟨declared, semicolon, rfl, ?_, ?_⟩
  · -- name, parenthesis and parameters in front, four tokens behind
    obtain ⟨front, back, rfl, hf, hb⟩ := List.map_eq_append_iff.1 hd
    obtain ⟨nameToken, _, rfl, hname, hf⟩ := List.map_eq_cons_iff.1 hf
    obtain ⟨opening, parameterTokens, rfl, hopening, hp⟩ := List.map_eq_cons_iff.1 hf
    obtain ⟨closing, _, rfl, hclosing, hb⟩ := List.map_eq_cons_iff.1 hb
    obtain ⟨separator, _, rfl, hseparator, hb⟩ := List.map_eq_cons_iff.1 hb
    obtain ⟨equals, _, rfl, hequals, hb⟩ := List.map_eq_cons_iff.1 hb
    obtain ⟨literal, _, rfl, hliteral, hb⟩ := List.map_eq_cons_iff.1 hb
    obtain rfl := List.map_eq_nil_iff.1 hb
    have hbody : literal.value = written.body := congrArg Prod.snd hliteral
    have hscan : Body.scan literal.value.toList = .ok written.expressions :=
      hbody ▸ written.scanned
    rw [entry, ← hbody]
    exact .intro (name?_eq_some_of_kindAndValue written.isName hname)
      (kind_eq_of_kindAndValue hopening) (parameters_of_map_eq written.areNames hp)
      (kind_eq_of_kindAndValue hclosing) (kind_eq_of_kindAndValue hseparator)
      (kind_eq_of_kindAndValue hequals) (kind_eq_of_kindAndValue hliteral) hscan
  · unfold semicolonLexemes at hs
    split at hs
    · obtain ⟨token, _, rfl, ht, hs⟩ := List.map_eq_cons_iff.1 hs
      obtain rfl := List.map_eq_nil_iff.1 hs
      exact .present (kind_eq_of_kindAndValue ht)
    · obtain rfl := List.map_eq_nil_iff.1 hs
      exact .absent

/-- Tokens of the kinds and values of written declarations are a sequence of them. -/
theorem sequence_of_map_eq {declarations : List Written} {tokens : List Token}
    (h : tokens.map Token.kindAndValue =
      (declarations.flatMap Written.lexemes).map Lexeme.kindAndValue) :
    Sequence tokens (declarations.map Written.entry) := by
  induction declarations generalizing tokens with
  | nil =>
    obtain rfl : tokens = [] := by simpa using h
    exact .nil
  | cons written declarations ih =>
    rw [List.flatMap_cons, List.map_append] at h
    obtain ⟨front, rest, rfl, hf, hr⟩ := List.map_eq_append_iff.1 h
    obtain ⟨declared, semicolon, rfl, hd, hs⟩ := written.exists_declares hf
    exact .cons hd hs (ih hr)

/-! ### The delimiters are nested -/

theorem Token.Kind.closing?_eq_none_of_isClosing {kind : Kind} (h : kind.isClosing = true) :
    kind.closing? = none := by
  cases kind <;> first | rfl | cases h

namespace Nesting

variable {opened : List Token}

theorem check_opening {token : Token} (h : token.kind.closing?.isSome = true)
    (opened rest : List Token) :
    check opened (token :: rest) = check (token :: opened) rest := by
  simp [check, h]

theorem check_closing {token : Token} (h : token.kind.isClosing = true) (innermost : Token)
    (outer rest : List Token) :
    check (innermost :: outer) (token :: rest) =
      if innermost.kind.closing? = some token.kind then check outer rest
      else .error ⟨.unexpectedClosing, token.extent⟩ := by
  have ho := Token.Kind.closing?_eq_none_of_isClosing h
  simp [check, h, ho]

theorem check_of_kind {token : Token} (rest : List Token) (ho : token.kind.closing? = none)
    (hc : token.kind.isClosing = false) : check opened (token :: rest) = check opened rest := by
  simp [check, ho, hc]

theorem check_of_name {token : Token} {name : String} (rest : List Token)
    (h : name? token = some name) : check opened (token :: rest) = check opened rest := by
  have hk := (Reading.name?_eq_some_iff.1 h).1
  exact check_of_kind rest (by rw [hk]; rfl) (by rw [hk]; rfl)

theorem check_of_parameters {tokens : List Token} {names : List String} (rest : List Token)
    (h : Parameters tokens names) : check opened (tokens ++ rest) = check opened rest := by
  induction h with
  | nil => rfl
  | last hn => exact check_of_name rest hn
  | @cons token comma _ _ _ hn hk _ ih =>
    rw [List.cons_append, List.cons_append, check_of_name _ hn,
      check_of_kind _ (by rw [hk]; rfl) (by rw [hk]; rfl), ih]

/-- A parenthesis is closed by the next one that is not closed before. -/
theorem check_of_parentheses {opening closing : Token} {inner : List Token} (rest : List Token)
    (ho : opening.kind = .leftParen) (hc : closing.kind = .rightParen)
    (hi : ∀ opened rest, check opened (inner ++ rest) = check opened rest) :
    check opened (opening :: (inner ++ closing :: rest)) = check opened rest := by
  have hpartner : opening.kind.closing? = some closing.kind := by
    rw [ho, hc]
    rfl
  have hclosing : closing.kind.isClosing = true := by
    rw [hc]
    rfl
  rw [check_opening (by rw [hpartner]; rfl), hi, check_closing hclosing, if_pos hpartner]

theorem check_of_declares {tokens : List Token} {entry : String × Definition}
    (rest : List Token) (h : Declares tokens entry) :
    check opened (tokens ++ rest) = check opened rest := by
  obtain ⟨hn, ho, hp, hc, hs, he, hl, -⟩ := h
  simp only [List.cons_append, List.append_assoc, List.nil_append]
  rw [check_of_name _ hn,
    check_of_parentheses _ ho hc fun opened rest => check_of_parameters rest hp,
    check_of_kind _ (by rw [hs]; rfl) (by rw [hs]; rfl),
    check_of_kind _ (by rw [he]; rfl) (by rw [he]; rfl),
    check_of_kind _ (by rw [hl]; rfl) (by rw [hl]; rfl)]

theorem check_of_semicolon {tokens : List Token} (rest : List Token)
    (h : OptionalSemicolon tokens) : check opened (tokens ++ rest) = check opened rest := by
  cases h with
  | absent => rfl
  | present hk => exact check_of_kind rest (by rw [hk]; rfl) (by rw [hk]; rfl)

/-- Declarations leave the open delimiters as they are. -/
theorem check_of_sequence {tokens : List Token} {definitions : Definitions}
    (h : Sequence tokens definitions) : check opened tokens = .ok opened := by
  induction h with
  | nil => rfl
  | cons hd hs _ ih =>
    rw [List.append_assoc, check_of_declares _ hd, check_of_semicolon _ hs, ih]

end Nesting

/-! ### The round trip -/

theorem Written.keys_map_entry (declarations : List Written) :
    Entries.keys (declarations.map entry) = declarations.map name := by
  simp [Entries.keys, entry, Function.comp_def]

/-- The tokens of a text that spells declarations are a sequence of them. -/
theorem exists_tokens_of_spells {declarations : List Written} {source : Text.Source}
    (h : Spells (declarations.flatMap Written.lexemes) source.text) :
    ∃ spelt, tokens source = .ok spelt ∧ Sequence spelt (declarations.map Written.entry) := by
  obtain ⟨spelt, hr, hm⟩ := h.exists_tokens 0
  have hs := sequence_of_map_eq hm
  refine ⟨spelt, ?_, hs⟩
  simp only [tokens, hr, Nesting.check_of_sequence hs]

theorem Written.spells_spell (declarations : List Written) (gaps : Nat → Trivia) :
    Spells (declarations.flatMap lexemes) (spell gaps (declarations.flatMap lexemes)) := by
  apply Group.spells_spell
  · intro lexeme hl
    obtain ⟨written, -, hl⟩ := List.mem_flatMap.1 hl
    exact written.spellable lexeme hl
  · induction declarations with
    | nil => trivial
    | cons written declarations ih =>
      rw [List.flatMap_cons]
      exact written.wordsEnd ih

/-- **Compiling what was spelt gives it back.**  Declarations with distinct names, spelt with
any delimiters that fit, with or without the optional commas and semicolons, and with any blanks
and comments between their tokens, compile to a group of just these templates in this order. -/
theorem compileGroup_spell (declarations : List Written) (gaps : Nat → Trivia)
    (distinct : (declarations.map Written.name).Nodup) :
    compileGroup (String.ofList (spell gaps (declarations.flatMap Written.lexemes))) =
      .ok ⟨declarations.map Written.entry⟩ := by
  have htext : (Text.Source.ofString
      (String.ofList (spell gaps (declarations.flatMap Written.lexemes)))).text =
      spell gaps (declarations.flatMap Written.lexemes) := by
    simp [Text.Source.ofString, Text.Source.ofList]
  obtain ⟨spelt, ht, hs⟩ :=
    exists_tokens_of_spells (htext ▸ Written.spells_spell declarations gaps)
  have hkeys : (Entries.keys (declarations.map Written.entry)).Nodup := by
    rwa [Written.keys_map_entry]
  have hread := readDefinitions_eq_ok_iff.2 ⟨spelt, ht, hs, hkeys⟩
  rw [compileGroup, compileDefinitions_eq_ok_iff.2 hread]
  rfl

/-- A template whose body is spelt with escapes, after a parameter that is listed twice. -/
def Written.escaped : Written where
  name := "r"
  parameters := ["a", "b", "a"]
  body := "\"<a>\"//\\n\x7b"
  expressions := [.literal "\"", .attribute "a", .literal "\"//\\n\x7b"]
  form := .quoted
  hasComma := true
  hasSemicolon := false
  isName := by decide
  areNames := by decide
  scanned := by
    have hrun : '<' ∉ ['"'] := by decide
    have hname : '>' ∉ ['a'] := by decide
    have hb : Text.isBlank 'a' = false := by decide
    have hs : Text.isIdentifierStart 'a' = true := by decide
    have hitems : Body.items 2 ['a'] = [⟨.name 'a' [], 2⟩] := by simp [Body.items, hb, hs]
    have hread : Body.readExpression 3 (Body.items 2 ['a']) = .ok (.attribute "a") := by
      rw [hitems]
      rfl
    exact Body.scanFrom_of_expression hrun hname hread (Body.scanFrom_of_not_mem (by decide))
  fits := trivial

/-- A template whose body holds quotes and number signs, and is spelt as it is. -/
def Written.verbatim : Written where
  name := "s"
  parameters := []
  body := "r#\"\n\"; >>##"
  expressions := [.literal "r#\"\n\"; >>##"]
  form := .raw 1
  hasComma := false
  hasSemicolon := true
  isName := by decide
  areNames := by decide
  scanned := Body.scanFrom_of_not_mem (by decide)
  fits := by simp [Form.Fits, Raw.terminator, List.infix_cons_iff]

/-- A comment with a quote in it stands between the two declarations. -/
def Trivia.between : Trivia :=
  have hline : '\n' ∉ [' ', '"'] := by decide
  ⟨[' ', '/', '/', ' ', '"', '\n'], .blank (by decide) (.comment hline .nil)⟩

theorem compileGroup_spell_of_quotes_in_bodies :
    compileGroup "r(a,b,a,)::=\"\\\"<a>\\\"//\\\\n\x7b\" // \"\ns()::=r#\"r#\"\n\"; >>##\"#;" =
      .ok ⟨[Written.escaped.entry, Written.verbatim.entry]⟩ := by
  have htext : String.ofList (spell (fun n => if n = 12 then Trivia.between else ⟨[], .nil⟩)
      ([Written.escaped, Written.verbatim].flatMap Written.lexemes)) =
      "r(a,b,a,)::=\"\\\"<a>\\\"//\\\\n\x7b\" // \"\ns()::=r#\"r#\"\n\"; >>##\"#;" := by
    decide +kernel
  rw [← htext]
  exact compileGroup_spell [Written.escaped, Written.verbatim] _ (by decide)

end Group

end TextTemplate
