import TextTemplate.Proofs.Group.RoundTrip
import TextTemplate.Proofs.Group.Layout

/-!
# Groups inside static declarations

A group text may be written between the braces of a static declaration, on lines of its own.  The
lines around it neither complete nor cut any of its tokens, whatever it ends with, and no brace of
it can be taken for the last one; so the declaration compiles if and only if the group does
(`compileStatic_wrap_eq_ok_iff`).
-/

namespace TextTemplate

namespace Group

open Lexing (behind read resume)

/-! ### Lines of tokens -/

/-- The end of a line ends the token before it, or the comment. -/
theorem Lexing.read_line_append {index : Nat} {line : List Char} {tokens : List Token}
    (h : read index line = ⟨tokens, none⟩) (rest : List Char) :
    read index (line ++ '\n' :: rest) =
      behind tokens (read (index + line.length + 1) rest) := by
  have hright : read index (line ++ []) = ⟨tokens, none⟩ := by rw [List.append_nil, h]
  have hs : Separates (index + line.length) tokens :=
    separates_of_forall_mem hright (by simp)
  obtain ⟨front, back, inComment, rfl, hinto⟩ := exists_cutInto hright hs (.inr (.inl (by simp)))
  obtain ⟨rfl, -⟩ := Lexing.mk.inj hinto.resume_right
  have hb : StartsBlank ('\n' :: rest) := by
    intro c hc
    obtain rfl := Option.some.inj hc
    decide
  rw [hinto.read_append _ hb, Lexing.resume_newline, List.append_nil]

/-- A closing brace on the next line is a token of its own. -/
theorem Lexing.read_brace_iff {index : Nat} {text : List Char} {tokens : List Token} :
    read index (text ++ ['\n', '}']) = ⟨tokens, none⟩ ↔ ∃ inner, read index text = ⟨inner, none⟩ ∧
      tokens = inner ++ [Token.verbatim .rightBrace (index + text.length + 1) ['}']] := by
  have hbrace : ∀ index, read index ['}'] = ⟨[Token.verbatim .rightBrace index ['}']], none⟩ := by
    intro index
    have hc : StartsToken '}' [] := ⟨by decide, by decide⟩
    rw [← List.nil_append ['}'], Lexing.read_token_append .nil hc,
      Token.read_mark _ _ (by decide)]
    dsimp only
    rw [List.drop_nil, Lexing.read_of_isTrivia .nil]
    rfl
  constructor
  · intro h
    have hs : Separates (index + text.length) tokens := by
      refine separates_of_forall_mem h (List.forall_mem_cons.2 ⟨by decide, ?_⟩)
      exact List.forall_mem_cons.2 ⟨by decide, by simp⟩
    obtain ⟨front, back, inComment, rfl, hinto⟩ := exists_cutInto h hs (.inr (.inl (by decide)))
    have hback := hinto.resume_right
    rw [Lexing.resume_newline, hbrace] at hback
    obtain ⟨rfl, -⟩ := Lexing.mk.inj hback
    have hfront := hinto.read_append [] (by simp [StartsBlank])
    refine ⟨front, ?_, rfl⟩
    rw [List.append_nil] at hfront
    rw [hfront]
    simp [behind, resume]
  · rintro ⟨inner, h, rfl⟩
    rw [Lexing.read_line_append h, hbrace]
    rfl

/-! ### The front of a static declaration -/

/-- The lexemes in front of the declarations. -/
def headLexemes (isPublic : Bool) (name : String) : List Lexeme :=
  (if isPublic then [.word "pub"] else []) ++ [.word "static", .word "ref", .word name, .mark '{']

/-- The first line of a static declaration. -/
def headLine (isPublic : Bool) (name : String) : String :=
  (if isPublic then "pub " else "") ++ "static ref " ++ name ++ " \x7b"

theorem spells_headLine {name : String} (hn : IsName name) (isPublic : Bool) :
    Spells (headLexemes isPublic name) (headLine isPublic name).toList := by
  have hspace : IsTrivia [' '] := .blank (by decide) .nil
  have hends : ∀ rest, EndsWord ([' '] ++ rest) := by
    intro rest
    refine StartsBlank.endsWord fun c hc => ?_
    obtain rfl : ' ' = c := Option.some.inj hc
    decide
  have hword : ∀ word, Text.isIdentifier word.toList = true → (Lexeme.word word).Spellable :=
    fun word h => h
  have hmark : (Lexeme.mark '{').Spellable := by simp [Lexeme.Spellable, marks]
  have hbrace := Spells.cons hspace hmark trivial (.nil .nil)
  have hname := Spells.cons hspace (hword name hn.1) (hends _) hbrace
  have href := Spells.cons hspace (hword "ref" (by decide)) (hends _) hname
  cases isPublic with
  | false =>
    have hstatic := Spells.cons .nil (hword "static" (by decide)) (hends _) href
    have htext : (headLine false name).toList =
        "static ref ".toList ++ (name.toList ++ " \x7b".toList) := by
      simp [headLine]
    rw [htext]
    exact hstatic
  | true =>
    have hstatic := Spells.cons hspace (hword "static" (by decide)) (hends _) href
    have hpub := Spells.cons .nil (hword "pub" (by decide)) (hends _) hstatic
    have htext : (headLine true name).toList =
        "pub static ref ".toList ++ (name.toList ++ " \x7b".toList) := by
      simp [headLine]
    rw [htext]
    exact hpub

/-! ### Tokens of a static declaration -/

namespace StaticReading

variable {isPublic : Bool} {name : String} {last : Text.Extent} {inner : List Token}
  {closing : Token} {declaration : StaticDeclaration}

theorem run_fixed_eq_ok_iff_sequence {ref nameToken opening : Token}
    (hr : isWord "ref" ref = true) (hn : Reading.name? nameToken = some name)
    (ho : opening.kind = .leftBrace) (hc : closing.kind = .rightBrace) :
    (fixed isPublic).run last (ref :: nameToken :: opening :: (inner ++ [closing])) =
        .ok declaration ↔
      ∃ definitions, (Sequence inner definitions ∧ (Entries.keys definitions).Nodup) ∧
        declaration = ⟨name, isPublic, definitions⟩ := by
  rw [run_fixed_eq_ok_iff]
  constructor
  · rintro ⟨_, _, _, _, _, name', definitions, ht, -, hn', -, hs, hd, -, rfl⟩
    simp only [List.cons.injEq, List.append_singleton_inj] at ht
    obtain ⟨rfl, rfl, rfl, rfl, rfl⟩ := ht
    obtain rfl : name = name' := Option.some.inj (hn.symm.trans hn')
    exact ⟨definitions, ⟨hs, hd⟩, rfl⟩
  · rintro ⟨definitions, ⟨hs, hd⟩, rfl⟩
    exact ⟨ref, nameToken, opening, inner, closing, name, definitions, rfl, hr, hn, ho, hs, hd, hc,
      rfl⟩

end StaticReading

open StaticReading (isWord isWord_iff)

/-- Behind the first line of a static declaration there is a sequence of declarations, and the
closing brace. -/
theorem declaresStatic_iff_sequence {isPublic : Bool} {name : String} {head inner : List Token}
    {closing : Token} {declaration : StaticDeclaration} (hn : IsName name)
    (h : head.map Token.kindAndValue = (headLexemes isPublic name).map Lexeme.kindAndValue)
    (hc : closing.kind = .rightBrace) :
    DeclaresStatic (head ++ (inner ++ [closing])) declaration ↔
      ∃ definitions, (Sequence inner definitions ∧ (Entries.keys definitions).Nodup) ∧
        declaration = ⟨name, isPublic, definitions⟩ := by
  have hword : ∀ {word : String} {token : Token},
      token.kindAndValue = (Lexeme.word word).kindAndValue → ∀ other,
        isWord other token = true ↔ word = other := by
    intro word token ht other
    obtain ⟨hk, hv⟩ : token.kind = .identifier ∧ token.value = word := Prod.mk.inj ht
    simp [isWord_iff, hk, hv]
  -- what follows the word `static`
  have hfixed : ∀ {tail : List Token}, tail.map Token.kindAndValue =
      [Lexeme.word "ref", .word name, .mark '{'].map Lexeme.kindAndValue → ∀ last,
        (StaticReading.fixed isPublic).run last (tail ++ (inner ++ [closing])) =
            .ok declaration ↔
          ∃ definitions, (Sequence inner definitions ∧ (Entries.keys definitions).Nodup) ∧
            declaration = ⟨name, isPublic, definitions⟩ := by
    intro tail h last
    obtain ⟨ref, _, rfl, hr, h⟩ := List.map_eq_cons_iff.1 h
    obtain ⟨nameToken, _, rfl, hname, h⟩ := List.map_eq_cons_iff.1 h
    obtain ⟨opening, _, rfl, ho, h⟩ := List.map_eq_cons_iff.1 h
    obtain rfl := List.map_eq_nil_iff.1 h
    exact StaticReading.run_fixed_eq_ok_iff_sequence ((hword hr "ref").2 rfl)
      (name?_eq_some_of_kindAndValue hn hname) (kind_eq_of_kindAndValue ho) hc
  have hrun : StaticReading.start.run ⟨0, 0⟩ (head ++ (inner ++ [closing])) = .ok declaration ↔
      DeclaresStatic (head ++ (inner ++ [closing])) declaration :=
    StaticReading.run_start_eq_ok_iff
  rw [← hrun]
  cases isPublic with
  | false =>
    obtain ⟨static, tail, rfl, hs, h⟩ := List.map_eq_cons_iff.1 h
    rw [List.cons_append, StaticReading.run_cons_eq_ok_iff, ← hfixed h static.extent]
    simp [StaticReading.step_start_eq_ok_iff, hword hs]
  | true =>
    obtain ⟨pub, _, rfl, hp, h⟩ := List.map_eq_cons_iff.1 h
    obtain ⟨static, tail, rfl, hs, h⟩ := List.map_eq_cons_iff.1 h
    rw [List.cons_append, List.cons_append, StaticReading.run_cons_eq_ok_iff,
      ← hfixed h static.extent]
    simp [StaticReading.step_start_eq_ok_iff, StaticReading.step_published_eq_ok_iff,
      StaticReading.run_cons_eq_ok_iff, hword hp, hword hs]

/-- The places of the tokens of declarations make no difference. -/
theorem sequence_congr {tokens tokens' : List Token} {definitions : Definitions}
    (h : tokens'.map Token.kindAndValue = tokens.map Token.kindAndValue) :
    (Sequence tokens' definitions ∧ (Entries.keys definitions).Nodup) ↔
      Sequence tokens definitions ∧ (Entries.keys definitions).Nodup := by
  have hrun : ∀ tokens, Reading.start.run ⟨0, 0⟩ tokens = .ok definitions ↔
      Sequence tokens definitions ∧ (Entries.keys definitions).Nodup :=
    fun _ => Reading.run_eq_ok_iff.trans Reading.reads_start_iff
  have hcongr : (Reading.start.run ⟨0, 0⟩ tokens').mapError Fault.problem =
      (Reading.start.run ⟨0, 0⟩ tokens).mapError Fault.problem := Reading.run_congr h
  rw [← hrun, ← hrun, ← Except.mapError_eq_ok_iff, hcongr, Except.mapError_eq_ok_iff]

/-! ### The delimiters -/

namespace Nesting

variable {opened : List Token}

theorem check_of_isWord {word : String} {token : Token} (rest : List Token)
    (h : isWord word token = true) : check opened (token :: rest) = check opened rest := by
  have hk := (isWord_iff.1 h).1
  exact check_of_kind rest (by rw [hk]; rfl) (by rw [hk]; rfl)

theorem check_of_sequence_append {tokens : List Token} {definitions : Definitions}
    (rest : List Token) (h : Sequence tokens definitions) :
    check opened (tokens ++ rest) = check opened rest := by
  induction h with
  | nil => rfl
  | cons hd hs _ ih =>
    rw [List.append_assoc, List.append_assoc, check_of_declares _ hd, check_of_semicolon _ hs, ih]

/-- The braces of a static declaration are those around its declarations. -/
theorem check_of_declaresStatic {tokens : List Token} {declaration : StaticDeclaration}
    (h : DeclaresStatic tokens declaration) : check opened tokens = .ok opened := by
  obtain @⟨pub, inner, static, ref, nameToken, opening, closing, _, _, _, hp, hw, hr, hn, ho, hs, -,
    hc⟩ := h
  have hpub : ∀ rest, check opened (pub ++ rest) = check opened rest := by
    intro rest
    cases hp with
    | absent => rfl
    | present hp => exact check_of_isWord rest hp
  have hpartner : opening.kind.closing? = some closing.kind := by
    rw [ho, hc]
    rfl
  have hclosing : closing.kind.isClosing = true := by
    rw [hc]
    rfl
  rw [hpub, check_of_isWord _ hw, check_of_isWord _ hr, check_of_name _ hn,
    check_opening (by rw [hpartner]; rfl), check_of_sequence_append _ hs, check_closing hclosing,
    if_pos hpartner]
  rfl

end Nesting

/-! ### The declaration and the group -/

/-- The text of a static declaration around the text of a group. -/
def wrap (isPublic : Bool) (name body : String) : String :=
  headLine isPublic name ++ "\n" ++ body ++ "\n\x7d"

/-- The delimiters of what is declared are nested, so only the reading of tokens may fail. -/
theorem readStatic_eq_ok_iff_read {source : Text.Source} {declaration : StaticDeclaration} :
    readStatic source = .ok declaration ↔
      ∃ spelt, read 0 source.text = ⟨spelt, none⟩ ∧ DeclaresStatic spelt declaration := by
  rw [readStatic_eq_ok_iff]
  refine exists_congr fun spelt => and_congr_left fun h => ?_
  rw [tokens_eq_ok_iff, and_iff_left (Nesting.check_of_declaresStatic h)]

theorem readDefinitions_eq_ok_iff_read {source : Text.Source} {definitions : Definitions} :
    readDefinitions source = .ok definitions ↔
      ∃ spelt, read 0 source.text = ⟨spelt, none⟩ ∧ Sequence spelt definitions ∧
        (Entries.keys definitions).Nodup := by
  rw [readDefinitions_eq_ok_iff]
  refine exists_congr fun spelt => and_congr_left fun h => ?_
  rw [tokens_eq_ok_iff, and_iff_left (Nesting.check_of_sequence h.1)]

theorem Lexing.behind_eq_iff {front tokens : List Token} {later : Lexing} :
    behind front later = ⟨tokens, none⟩ ↔
      ∃ back, later = ⟨back, none⟩ ∧ tokens = front ++ back := by
  obtain ⟨back, fault?⟩ := later
  constructor
  · intro h
    obtain ⟨rfl, rfl⟩ := Lexing.mk.inj h
    exact ⟨back, rfl, rfl⟩
  · rintro ⟨_, h, rfl⟩
    cases h
    rfl

theorem Lexing.shift_eq_iff {n : Nat} {lexing : Lexing} {tokens : List Token} :
    lexing.shift n = ⟨tokens, none⟩ ↔
      ∃ inner, lexing = ⟨inner, none⟩ ∧ tokens = inner.map (Token.shift n) := by
  obtain ⟨inner, fault?⟩ := lexing
  constructor
  · intro h
    obtain ⟨rfl, hf⟩ := Lexing.mk.inj h
    obtain rfl := Option.map_eq_none_iff.1 hf
    exact ⟨inner, rfl, rfl⟩
  · rintro ⟨_, h, rfl⟩
    cases h
    rfl

/-- The tokens of the text around a group are those of the first line, those of the group, and the
closing brace. -/
theorem exists_read_wrap_iff {isPublic : Bool} {name : String} (hn : IsName name) (body : String) :
    ∃ head start closing,
      head.map Token.kindAndValue = (headLexemes isPublic name).map Lexeme.kindAndValue ∧
      closing.kind = .rightBrace ∧
      ∀ spelt, read 0 (wrap isPublic name body).toList = ⟨spelt, none⟩ ↔
        ∃ inner, read 0 body.toList = ⟨inner, none⟩ ∧
          spelt = head ++ (inner.map (Token.shift start) ++ [closing]) := by
  have htext : (wrap isPublic name body).toList =
      (headLine isPublic name).toList ++ '\n' :: (body.toList ++ ['\n', '}']) := by
    simp [wrap]
  obtain ⟨head, hhead, hk⟩ := (spells_headLine hn isPublic).exists_tokens 0
  obtain ⟨start, hstart⟩ : ∃ n, n = 0 + (headLine isPublic name).toList.length + 1 := ⟨_, rfl⟩
  refine ⟨head, start, .verbatim .rightBrace (start + body.toList.length + 1) ['}'], hk, rfl,
    fun spelt => ?_⟩
  rw [htext, Lexing.read_line_append hhead, Lexing.behind_eq_iff, ← hstart]
  -- the body is read as it is read alone, further to the right
  have hbody : read start body.toList = (read 0 body.toList).shift start := by
    rw [← Lexing.read_shift, Nat.add_zero]
  constructor
  · rintro ⟨back, hb, rfl⟩
    obtain ⟨moved, hmoved, rfl⟩ := Lexing.read_brace_iff.1 hb
    rw [hbody] at hmoved
    obtain ⟨inner, hinner, rfl⟩ := Lexing.shift_eq_iff.1 hmoved
    exact ⟨inner, hinner, rfl⟩
  · rintro ⟨inner, hinner, rfl⟩
    refine ⟨_, Lexing.read_brace_iff.2 ⟨_, ?_, rfl⟩, rfl⟩
    rw [hbody, hinner]
    rfl

/-- **A group and a static declaration around it compile to the same.**  Whatever the group text
holds or ends with, the lines around it change nothing: one of the two compiles if and only if the
other does, and then both have the same templates in the same order. -/
theorem compileStatic_wrap_eq_ok_iff {isPublic : Bool} {name : String} (isName : IsName name)
    (body : String) (declaration : StaticDeclaration) :
    compileStatic (wrap isPublic name body) = .ok declaration ↔
      ∃ group, compileGroup body = .ok group ∧
        declaration = ⟨name, isPublic, group.definitions⟩ := by
  obtain ⟨head, start, closing, hk, hc, hread⟩ := exists_read_wrap_iff isName body
  have hinner : ∀ inner definitions,
      (Sequence (inner.map (Token.shift start)) definitions ∧ (Entries.keys definitions).Nodup) ↔
        Sequence inner definitions ∧ (Entries.keys definitions).Nodup :=
    fun inner definitions => sequence_congr (by simp [Function.comp_def])
  rw [compileStatic_eq_ok_iff, readStatic_eq_ok_iff_read]
  constructor
  · rintro ⟨spelt, hs, hd⟩
    obtain ⟨inner, hi, rfl⟩ := (hread spelt).1 hs
    obtain ⟨definitions, hseq, rfl⟩ := (declaresStatic_iff_sequence isName hk hc).1 hd
    have hdefs : readDefinitions (Text.Source.ofString body) = .ok definitions :=
      readDefinitions_eq_ok_iff_read.2 ⟨inner, hi, (hinner inner definitions).1 hseq⟩
    refine ⟨⟨definitions⟩, ?_, rfl⟩
    rw [compileGroup, compileDefinitions_eq_ok_iff.2 hdefs]
    rfl
  · rintro ⟨group, hg, rfl⟩
    obtain ⟨definitions, hdefs, rfl⟩ := Except.map_eq_ok_iff.1 hg
    obtain ⟨inner, hi, hseq⟩ :=
      readDefinitions_eq_ok_iff_read.1 (compileDefinitions_eq_ok_iff.1 hdefs)
    refine ⟨_, (hread _).2 ⟨inner, hi, rfl⟩, ?_⟩
    exact (declaresStatic_iff_sequence isName hk hc).2
      ⟨definitions, (hinner inner definitions).2 hseq, rfl⟩

theorem compileStatic_wrap_eq_ok_iff_of_open_comment :
    compileStatic (wrap true "g" "a()::=<<\x7d>> // \x7b") = .ok ⟨"g", true,
      [("a", ⟨"\x7d", [.literal "\x7d"], some (NameSet.ofList [])⟩)]⟩ := by
  have hbody : compileGroup "a()::=<<\x7d>> // \x7b" =
      .ok ⟨[("a", ⟨"\x7d", [.literal "\x7d"], some (NameSet.ofList [])⟩)]⟩ := by
    cbv
  exact (compileStatic_wrap_eq_ok_iff (by decide) _ _).2 ⟨_, hbody, rfl⟩

end Group

end TextTemplate
