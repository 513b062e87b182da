import TextTemplate.Proofs.Group.Completions
import TextTemplate.Proofs.Group.Coverage

/-!
# The names that can be declared

A declared template is named by an identifier that is no reserved word
(`isName_of_compileStatic`), and every such name can be declared
(`exists_compileStatic_of_isName`).
-/

namespace TextTemplate

namespace Group

open Reading (name?)

variable {name : String} {declaration : StaticDeclaration}

/-! ### Declared names -/

/-- The name of a declaration is the name of one of its tokens. -/
theorem Sequence.exists_token {tokens : List Token} {definitions : Definitions}
    (h : Sequence tokens definitions) (hn : name ∈ Entries.keys definitions) :
    ∃ token ∈ tokens, name? token = some name := by
  induction h with
  | nil => cases hn
  | cons hd _ _ ih =>
    obtain ⟨hname⟩ := hd
    rcases List.mem_cons.1 hn with rfl | hn
    · exact ⟨_, by simp, hname⟩
    · obtain ⟨token, hm, ht⟩ := ih hn
      exact ⟨token, List.mem_append_right _ hm, ht⟩

theorem isName_of_mem_read {source : Text.Source} {token : Token}
    (h : token ∈ (Lexing.read 0 source.text).tokens) (hn : name? token = some name) :
    IsName name := by
  obtain ⟨hk, hr, rfl⟩ := Reading.name?_eq_some_iff.1 hn
  exact ⟨((Token.occupies_of_mem h).maximal hk).1, hr⟩

/-- The templates of a static declaration have names that are no reserved words. -/
theorem isName_of_compileStatic {source : String} (h : compileStatic source = .ok declaration)
    (hn : name ∈ Entries.keys declaration.definitions) : IsName name := by
  obtain ⟨spelt, hread, hd⟩ := readStatic_eq_ok_iff_read.1 (compileStatic_eq_ok_iff.1 h)
  obtain ⟨-, -, -, -, -, hs, -, -⟩ := hd
  obtain ⟨token, hm, ht⟩ := hs.exists_token hn
  have hmem : token ∈ (Lexing.read 0 (Text.Source.ofString source).text).tokens := by
    rw [hread]
    simp [hm]
  exact isName_of_mem_read hmem ht

/-! ### Declaring a name -/

theorem scan_empty : Body.scan "".toList = .ok [] := by cbv

/-- The template with no parameters and an empty body under a name. -/
def Written.plain (isName : IsName name) : Written where
  name := name
  parameters := []
  body := ""
  expressions := []
  form := .quoted
  hasComma := false
  hasSemicolon := false
  isName := isName
  areNames := List.forall_mem_nil _
  scanned := scan_empty
  fits := trivial

theorem spellable_headLexemes (isName : IsName name) (isPublic : Bool) :
    ∀ lexeme ∈ headLexemes isPublic name, lexeme.Spellable := by
  have hpub : (Lexeme.word "pub").Spellable := by unfold Lexeme.Spellable; decide
  have hstatic : (Lexeme.word "static").Spellable := by unfold Lexeme.Spellable; decide
  have href : (Lexeme.word "ref").Spellable := by unfold Lexeme.Spellable; decide
  have hname : (Lexeme.word name).Spellable := isName.1
  have hbrace : (Lexeme.mark '{').Spellable := by unfold Lexeme.Spellable; decide
  cases isPublic <;> simp only [headLexemes, if_true, Bool.false_eq_true, if_false, List.nil_append,
    List.cons_append, List.forall_mem_cons]
  · exact ⟨hstatic, href, hname, hbrace, nofun⟩
  · exact ⟨hpub, hstatic, href, hname, hbrace, nofun⟩

/-- Every identifier that is no reserved word names a template of some static declaration. -/
theorem exists_compileStatic_of_isName (h : IsName name) : ∃ source declaration,
    compileStatic source = .ok declaration ∧ name ∈ Entries.keys declaration.definitions := by
  let written := Written.plain h
  let lexemes := headLexemes false "g" ++ (written.lexemes ++ [.mark '}'])
  have hg : IsName "g" := by decide
  have hspellable : ∀ lexeme ∈ lexemes, lexeme.Spellable := by
    intro lexeme hl
    simp only [lexemes, List.mem_append, List.mem_singleton] at hl
    rcases hl with hl | hl | rfl
    · exact spellable_headLexemes hg false lexeme hl
    · exact written.spellable lexeme hl
    · simp [Lexeme.Spellable, marks]
  obtain ⟨spelt, hread, hmap⟩ := (spells_spaced hspellable).exists_tokens 0
  -- the tokens are those of the first line, of the declaration, and a brace
  rw [List.map_append, List.map_append] at hmap
  obtain ⟨head, tail, rfl, hhead, htail⟩ := List.map_eq_append_iff.1 hmap
  obtain ⟨inner, last, rfl, hinner, hlast⟩ := List.map_eq_append_iff.1 htail
  obtain ⟨closing, _, rfl, hclosing, hnone⟩ := List.map_eq_cons_iff.1 hlast
  obtain rfl := List.map_eq_nil_iff.1 hnone
  have hsequence : Sequence inner ([written].map Written.entry) :=
    sequence_of_map_eq (by simpa using hinner)
  have hdeclares : DeclaresStatic (head ++ (inner ++ [closing])) ⟨"g", false, [written.entry]⟩ :=
    (declaresStatic_iff_sequence hg hhead (kind_eq_of_kindAndValue hclosing)).2
      ⟨_, ⟨hsequence, by simp [Entries.keys]⟩, rfl⟩
  have htext : (Text.Source.ofString (String.ofList (spaced lexemes))).text = spaced lexemes := by
    simp [Text.Source.ofString, Text.Source.ofList]
  have hstatic := readStatic_eq_ok_iff_read.2 ⟨_, htext.symm ▸ hread, hdeclares⟩
  exact ⟨_, _, compileStatic_eq_ok_iff.2 hstatic, List.mem_singleton.2 rfl⟩

end Group

end TextTemplate
