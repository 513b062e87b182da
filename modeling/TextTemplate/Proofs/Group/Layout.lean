import Mathlib
import TextTemplate.Template
import TextTemplate.Proofs.Group.Cuts

/-!
# Layout

What is compiled, and what is reported, depends on the kinds and values of the tokens only, and
blanks and comments between two tokens change neither.

* `Lexing.exists_read_insert`: blanks and comments at the place where a token starts or ends leave
  the tokens as they are, up to their places;
* `Nesting.exists_check_congr`, `Reading.run_congr`, `StaticReading.run_congr`: the places of the
  tokens make no difference, up to the places of faults;
* `layout_does_not_matter`: both together, for texts.
-/

namespace TextTemplate

namespace Group

/-! ### Blanks and comments between tokens -/

@[simp] theorem Token.kindAndValue_shift (n : Nat) (token : Token) :
    (token.shift n).kindAndValue = token.kindAndValue := rfl

namespace Lexing

/-- Blanks and comments that follow an open comment are no tokens: the end of its line is among
them, or all of them belong to the comment. -/
theorem resume_of_isTrivia {gap : List Char} (h : IsTrivia gap) (index : Nat) :
    resume true index gap = ⟨[], none⟩ := by
  induction h generalizing index with
  | nil => rfl
  | @blank c rest _ hrest ih =>
    by_cases hc : c = '\n'
    · rw [hc, resume_newline, read_of_isTrivia hrest]
    · have hline : '\n' ∉ [c] := by simpa using Ne.symm hc
      rw [← List.singleton_append, resume_append (triviaLength_append_of_not_mem hline rest), ih]
  | @comment line rest hn hrest _ =>
    have hline : '\n' ∉ '/' :: '/' :: line := by
      simp [hn]
    rw [← List.cons_append, ← List.cons_append, resume_line hline, read_of_isTrivia hrest]

/-- Where a token starts or ends, or the text does, blanks and comments only move what follows. -/
theorem exists_read_insert {index : Nat} {left gap right : List Char} {tokens : List Token}
    (h : read index (left ++ right) = ⟨tokens, none⟩)
    (hc : right = [] ∨ Touches (index + left.length) tokens)
    (hg : IsTrivia gap) (hb : StartsBlank (gap ++ right)) :
    ∃ moved, read index (left ++ (gap ++ right)) = ⟨moved, none⟩ ∧
      moved.map Token.kindAndValue = tokens.map Token.kindAndValue := by
  have hplaced := (arePlaced_read index (left ++ right)).1
  rw [h] at hplaced
  have hs : Separates (index + left.length) tokens := by
    rcases hc with rfl | hc
    · intro token hm
      exact .inl (by simpa using (hplaced.placedIn token hm).extent.stop_le)
    · exact separates_of_touches hplaced hc
  have hslash : left = [] ∨ right.head? ≠ some '/' ∨ Touches (index + left.length) tokens := by
    rcases hc with rfl | hc
    · exact .inr (.inl (by simp))
    · exact .inr (.inr hc)
  obtain ⟨front, back, inComment, rfl, hinto⟩ := exists_cutInto h hs hslash
  have hback := hinto.resume_right
  rw [hinto.read_append _ hb]
  cases inComment with
  | false =>
    -- what is behind the cut is read as before, further to the right
    rw [resume_false] at hback
    rw [resume_false, read_trivia_append hg, Nat.add_comm _ gap.length, read_shift, hback]
    refine ⟨front ++ back.map (Token.shift gap.length), rfl, ?_⟩
    simp [Function.comp_def]
  | true =>
    rcases hc with rfl | hc
    · obtain ⟨rfl, -⟩ := Lexing.mk.inj hback
      rw [List.append_nil, resume_of_isTrivia hg]
      exact ⟨front, by simp [behind], by simp⟩
    · exact absurd hc (hinto.not_touches rfl).2

end Lexing

/-! ### The places of tokens -/

/-- The nesting of delimiters is a matter of kinds. -/
theorem Nesting.exists_check_congr {opened opened' tokens tokens' left : List Token}
    (ho : opened'.map Token.kind = opened.map Token.kind)
    (ht : tokens'.map Token.kind = tokens.map Token.kind) (h : check opened tokens = .ok left) :
    ∃ left', check opened' tokens' = .ok left' ∧ left'.map Token.kind = left.map Token.kind := by
  induction tokens generalizing opened opened' tokens' with
  | nil =>
    obtain rfl := List.map_eq_nil_iff.1 ht
    cases h
    exact ⟨opened', rfl, ho⟩
  | cons token rest ih =>
    obtain ⟨token', rest', rfl, hk, hrest⟩ := List.map_eq_cons_iff.1 ht
    unfold check at h ⊢
    rw [hk]
    split at h
    · next hopen =>
      rw [if_pos hopen]
      exact ih (by simp [hk, ho]) hrest h
    · next hopen =>
      rw [if_neg hopen]
      split at h
      · next hclose =>
        rw [if_pos hclose]
        cases opened with
        | nil => cases h
        | cons innermost outer =>
          obtain ⟨innermost', outer', rfl, hi, ho⟩ := List.map_eq_cons_iff.1 ho
          dsimp only at h ⊢
          rw [hi]
          split at h
          · next hmatch =>
            rw [if_pos hmatch]
            exact ih ho hrest h
          · cases h
      · next hclose =>
        rw [if_neg hclose]
        exact ih ho hrest h

theorem Token.describe_congr {token token' : Token}
    (h : token'.kindAndValue = token.kindAndValue) : token'.describe = token.describe := by
  obtain ⟨hk, hv⟩ := Prod.mk.inj h
  rw [describe, describe, hk, hv]

namespace Reading

variable {reading : Reading} {token token' : Token} {rest rest' : List Token}

theorem name?_congr (h : token'.kindAndValue = token.kindAndValue) :
    name? token' = name? token := by
  obtain ⟨hk, hv⟩ := Prod.mk.inj h
  rw [name?, name?, hk, hv]

theorem define_congr (h : token'.kindAndValue = token.kindAndValue) (parameters : List String) :
    (define parameters token').mapError Fault.problem =
      (define parameters token).mapError Fault.problem := by
  obtain ⟨-, hv⟩ := Prod.mk.inj h
  rw [define, define, hv]
  cases Body.scan token.value.toList <;> rfl

theorem startDeclaration_congr (h : token'.kindAndValue = token.kindAndValue) :
    (reading.startDeclaration token' rest').mapError Fault.problem =
      (reading.startDeclaration token rest).mapError Fault.problem := by
  rw [startDeclaration, startDeclaration, name?_congr h]
  cases name? token with
  | none => rfl
  | some name =>
    dsimp only
    split <;> rfl

theorem step_congr (h : token'.kindAndValue = token.kindAndValue) :
    (reading.step token' rest').mapError Fault.problem =
      (reading.step token rest).mapError Fault.problem := by
  obtain ⟨definitions, progress⟩ := reading
  unfold step
  rw [show token'.kind = token.kind from congrArg Prod.fst h]
  dsimp only
  split
  · exact startDeclaration_congr h
  · rfl
  · exact startDeclaration_congr h
  · rfl
  · rfl
  · rw [name?_congr h]
    cases name? token <;> rfl
  · rfl
  · rfl
  · rfl
  · rfl
  · rw [Except.mapError_map, Except.mapError_map, define_congr h]
  · rfl

theorem run_cons (last : Text.Extent) : reading.run last (token :: rest) =
    (reading.step token rest).bind fun next => next.run token.extent rest := by
  rw [run]
  cases reading.step token rest <;> rfl

theorem run_congr {last last' : Text.Extent} {tokens tokens' : List Token}
    (h : tokens'.map Token.kindAndValue = tokens.map Token.kindAndValue) :
    (reading.run last' tokens').mapError Fault.problem =
      (reading.run last tokens).mapError Fault.problem := by
  induction tokens generalizing reading last last' tokens' with
  | nil =>
    obtain rfl := List.map_eq_nil_iff.1 h
    rw [run, run]
    split <;> rfl
  | cons token rest ih =>
    obtain ⟨token', rest', rfl, hk, hrest⟩ := List.map_eq_cons_iff.1 h
    rw [run_cons, run_cons]
    exact Except.mapError_bind_congr (step_congr hk) fun next => ih hrest

end Reading

namespace StaticReading

variable {reading : StaticReading} {token token' : Token} {rest rest' : List Token}

theorem isWord_congr (h : token'.kindAndValue = token.kindAndValue) (word : String) :
    isWord word token' = isWord word token := by
  obtain ⟨hk, hv⟩ := Prod.mk.inj h
  rw [isWord, isWord, hk, hv]

theorem step_congr (h : token'.kindAndValue = token.kindAndValue) :
    (reading.step token' rest').mapError Fault.problem =
      (reading.step token rest).mapError Fault.problem := by
  have hk : token'.kind = token.kind := congrArg Prod.fst h
  unfold step
  cases reading with
  | start | published | fixed _ =>
    simp only [isWord_congr h]
    repeat' split
    all_goals rfl
  | referenced isPublic =>
    dsimp only
    rw [Reading.name?_congr h]
    cases Reading.name? token <;> rfl
  | named isPublic name =>
    dsimp only
    rw [hk]
    split <;> rfl
  | inside isPublic name reading =>
    dsimp only
    rw [hk]
    split
    · rfl
    · rw [Except.mapError_map, Except.mapError_map, Reading.step_congr h]
  | complete declaration =>
    dsimp only
    rw [Token.describe_congr h]
    rfl

theorem run_cons (last : Text.Extent) : reading.run last (token :: rest) =
    (reading.step token rest).bind fun next => next.run token.extent rest := by
  rw [run]
  cases reading.step token rest <;> rfl

theorem run_congr {last last' : Text.Extent} {tokens tokens' : List Token}
    (h : tokens'.map Token.kindAndValue = tokens.map Token.kindAndValue) :
    (reading.run last' tokens').mapError Fault.problem =
      (reading.run last tokens).mapError Fault.problem := by
  induction tokens generalizing reading last last' tokens' with
  | nil =>
    obtain rfl := List.map_eq_nil_iff.1 h
    cases reading <;> rfl
  | cons token rest ih =>
    obtain ⟨token', rest', rfl, hk, hrest⟩ := List.map_eq_cons_iff.1 h
    rw [run_cons, run_cons]
    exact Except.mapError_bind_congr (step_congr hk) fun next => ih hrest

end StaticReading

/-! ### Texts -/

theorem tokens_eq_ok_iff {source : Text.Source} {spelt : List Token} :
    tokens source = .ok spelt ↔
      Lexing.read 0 source.text = ⟨spelt, none⟩ ∧ Nesting.check [] spelt = .ok [] := by
  constructor
  · intro h
    unfold tokens at h
    dsimp only at h
    split at h
    · cases h
    · cases h
    · cases h
    · next hcheck hfault =>
      obtain rfl := Except.ok.inj h
      exact ⟨congrArg (Lexing.mk _) hfault, hcheck⟩
  · rintro ⟨hread, hcheck⟩
    simp only [tokens, hread, hcheck]

theorem message_compileDefinitions (text : String) :
    (compileDefinitions text).mapError CompileError.message =
      ((readDefinitions (Text.Source.ofString text)).mapError Fault.problem).mapError
        Problem.message := by
  unfold compileDefinitions
  dsimp only
  cases readDefinitions (Text.Source.ofString text) <;> rfl

theorem message_compileStatic (text : String) :
    (compileStatic text).mapError CompileError.message =
      ((readStatic (Text.Source.ofString text)).mapError Fault.problem).mapError
        Problem.message := by
  unfold compileStatic
  dsimp only
  cases readStatic (Text.Source.ofString text) <;> rfl

/-- Texts with tokens of the same kinds and values compile to the same, or fail with the same
message. -/
theorem compile_congr {text text' : String} {spelt spelt' : List Token}
    (h : tokens (Text.Source.ofString text) = .ok spelt)
    (h' : tokens (Text.Source.ofString text') = .ok spelt')
    (hk : spelt'.map Token.kindAndValue = spelt.map Token.kindAndValue) :
    (compileGroup text').mapError CompileError.message =
        (compileGroup text).mapError CompileError.message ∧
      (compileStatic text').mapError CompileError.message =
        (compileStatic text).mapError CompileError.message := by
  constructor
  · rw [compileGroup, compileGroup, Except.mapError_map, Except.mapError_map,
      message_compileDefinitions, message_compileDefinitions, readDefinitions, readDefinitions,
      h, h']
    dsimp only
    rw [Reading.run_congr hk]
  · rw [message_compileStatic, message_compileStatic, readStatic, readStatic, h, h']
    dsimp only
    rw [StaticReading.run_congr hk]

theorem exists_tokens_insert {left gap right : List Char} {spelt : List Token}
    (h : tokens (Text.Source.ofList (left ++ right)) = .ok spelt)
    (hc : right = [] ∨ Touches left.length spelt) (hg : IsTrivia gap)
    (hb : StartsBlank (gap ++ right)) :
    ∃ moved, tokens (Text.Source.ofList (left ++ (gap ++ right))) = .ok moved ∧
      moved.map Token.kindAndValue = spelt.map Token.kindAndValue := by
  obtain ⟨hread, hcheck⟩ := tokens_eq_ok_iff.1 h
  obtain ⟨moved, hmoved, hk⟩ :=
    Lexing.exists_read_insert hread (by rwa [Nat.zero_add]) hg hb
  have hkinds : moved.map Token.kind = spelt.map Token.kind := by
    simpa [Function.comp_def, Token.kindAndValue] using congrArg (List.map Prod.fst) hk
  obtain ⟨opened, hopened, hnone⟩ := Nesting.exists_check_congr rfl hkinds hcheck
  obtain rfl : opened = [] := List.map_eq_nil_iff.1 hnone
  exact ⟨moved, tokens_eq_ok_iff.2 ⟨hmoved, hopened⟩, hk⟩

/-- **Layout does not matter.**  Blanks and comments can be put where a token starts or ends, if a
blank comes first: the kinds and values of the tokens stay the same, and so do the groups that are
compiled, and the messages where there are none. -/
theorem layout_does_not_matter {left gap right : String} {spelt : List Token}
    (h : tokenize (Text.Source.ofString (left ++ right)) = .ok spelt)
    (touches : ∃ token ∈ spelt,
      left.length = token.extent.start ∨ left.length = token.extent.stop)
    (trivia : IsTrivia gap.toList)
    (blank : ∃ c, gap.toList.head? = some c ∧ Text.isBlank c = true) :
    (∃ moved, tokenize (Text.Source.ofString (left ++ gap ++ right)) = .ok moved ∧
      moved.map Token.kindAndValue = spelt.map Token.kindAndValue) ∧
    (compileGroup (left ++ gap ++ right)).mapError CompileError.message =
      (compileGroup (left ++ right)).mapError CompileError.message ∧
    (compileStatic (left ++ gap ++ right)).mapError CompileError.message =
      (compileStatic (left ++ right)).mapError CompileError.message := by
  obtain ⟨inner, hinner, rfl⟩ := Except.map_eq_ok_iff.1 h
  have hc : right.toList = [] ∨ Touches left.toList.length inner := by
    obtain ⟨token, hm, ht⟩ := touches
    rcases List.mem_append.1 hm with hm | hm
    · exact .inr ⟨token, hm, ht⟩
    · -- the token at the end of the text starts and ends there
      obtain rfl := List.mem_singleton.1 hm
      have hlength : left.toList.length = (left.toList ++ right.toList).length := by
        rw [← String.toList_append]
        exact ht.elim id id
      exact .inl (by simpa using hlength)
  have hb : StartsBlank (gap.toList ++ right.toList) := by
    obtain ⟨c, hc, hblank⟩ := blank
    intro d hd
    rw [List.head?_append, hc] at hd
    obtain rfl := Option.some.inj hd
    exact hblank
  have hsource : Text.Source.ofString (left ++ right) = .ofList (left.toList ++ right.toList) := by
    rw [Text.Source.ofString, String.toList_append]
  have hsource' : Text.Source.ofString (left ++ gap ++ right) =
      .ofList (left.toList ++ (gap.toList ++ right.toList)) := by
    rw [Text.Source.ofString, String.toList_append, String.toList_append, List.append_assoc]
  rw [hsource] at hinner
  obtain ⟨moved, hmoved, hk⟩ := exists_tokens_insert hinner hc trivia hb
  rw [← hsource] at hinner
  rw [← hsource'] at hmoved
  refine ⟨⟨_, Except.map_eq_ok_iff.2 ⟨moved, hmoved, rfl⟩, ?_⟩, compile_congr hinner hmoved hk⟩
  rw [List.map_append, List.map_append, hk]
  rfl

theorem layout_does_not_matter_of_colons :
    (∃ moved, tokenize (Text.Source.ofString ("a()" ++ " // ::\n" ++ "::=<<//>>")) = .ok moved ∧
      moved.map Token.kindAndValue = [(.identifier, "a"), (.leftParen, "("), (.rightParen, ")"),
        (.pathSeparator, "::"), (.equals, "="), (.string, "//"), (.endOfInput, "")]) ∧
    (compileGroup ("a()" ++ " // ::\n" ++ "::=<<//>>")).mapError CompileError.message =
      (compileGroup ("a()" ++ "::=<<//>>")).mapError CompileError.message ∧
    (compileStatic ("a()" ++ " // ::\n" ++ "::=<<//>>")).mapError CompileError.message =
      (compileStatic ("a()" ++ "::=<<//>>")).mapError CompileError.message := by
  have h : tokenize (Text.Source.ofString ("a()" ++ "::=<<//>>")) =
      .ok [⟨.identifier, "a", ⟨0, 1⟩, []⟩, ⟨.leftParen, "(", ⟨1, 2⟩, []⟩,
        ⟨.rightParen, ")", ⟨2, 3⟩, []⟩, ⟨.pathSeparator, "::", ⟨3, 5⟩, []⟩,
        ⟨.equals, "=", ⟨5, 6⟩, []⟩, ⟨.string, "//", ⟨6, 12⟩, [8, 9, 10]⟩,
        ⟨.endOfInput, "", ⟨12, 12⟩, []⟩] := by
    cbv
  have hline : '\n' ∉ [' ', ':', ':'] := by decide
  exact layout_does_not_matter h ⟨⟨.rightParen, ")", ⟨2, 3⟩, []⟩, by simp, .inr rfl⟩
    (.blank (by decide) (.comment hline .nil)) ⟨' ', rfl, by decide⟩

end Group

end TextTemplate
