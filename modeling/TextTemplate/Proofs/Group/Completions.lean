import TextTemplate.Proofs.Group.Wrapping
import TextTemplate.Proofs.Group.Matching
import TextTemplate.Proofs.Group.BodyFaults

/-!
# Errors at the earliest token

A reader that has got somewhere can always get to the end: whatever the state, a few lexemes finish
the declaration at hand (`Reading.completion`, `StaticReading.completion`).  Written behind a front
of a text, they make a text that compiles (`exists_text_of_front`).  So the tokens in front of the
one at which reading stops can be continued to something that compiles, and with this token they
cannot, since it is refused whatever follows.
-/

namespace TextTemplate

namespace Group

/-! ### Fronts of texts -/

open Lexing (behind read resume)

/-- There is one way to cut tokens into those that end at an index or before, and others. -/
theorem eq_of_append_eq {cut : Nat} {front front' back back' : List Token}
    (h : front ++ back = front' ++ back') (hf : ∀ token ∈ front, token.extent.stop ≤ cut)
    (hb : ∀ token ∈ back, cut < token.extent.stop) (hf' : ∀ token ∈ front', token.extent.stop ≤ cut)
    (hb' : ∀ token ∈ back', cut < token.extent.stop) : front = front' := by
  have hfilter := congrArg (List.filter fun token => token.extent.stop ≤ cut) h
  have hnone : ∀ tokens : List Token, (∀ token ∈ tokens, cut < token.extent.stop) →
      tokens.filter (fun token => token.extent.stop ≤ cut) = [] := fun tokens ht => by
    simpa [List.filter_eq_nil_iff] using ht
  have hall : ∀ tokens : List Token, (∀ token ∈ tokens, token.extent.stop ≤ cut) →
      tokens.filter (fun token => token.extent.stop ≤ cut) = tokens := fun tokens ht => by
    simpa [List.filter_eq_self] using ht
  rwa [List.filter_append, List.filter_append, hall _ hf, hnone _ hb, hall _ hf', hnone _ hb',
    List.append_nil, List.append_nil] at hfilter

/-- Of tokens that stand one behind the other, those up to one of them end where it does or before,
and all others behind it. -/
theorem Token.ArePlaced.ends {upper lower : Nat} {front rest : List Token} {token : Token}
    (h : ArePlaced upper lower (front ++ [token] ++ rest)) :
    (∀ other ∈ front ++ [token], other.extent.stop ≤ token.extent.stop) ∧
      ∀ other ∈ rest, token.extent.stop < other.extent.stop := by
  have hlt : ∀ other ∈ front ++ [token] ++ rest, other.extent.start < other.extent.stop :=
    fun other ho => (h.placedIn other ho).extent.start_lt_stop
  obtain ⟨hbefore, -, hacross⟩ := List.pairwise_append.1 h.pairwise
  constructor
  · intro other ho
    rcases List.mem_append.1 ho with ho | ho
    · have := (List.pairwise_append.1 hbefore).2.2 other ho token List.mem_cons_self
      have := hlt token (by simp)
      omega
    · rw [List.mem_singleton.1 ho]
  · intro other ho
    have := hacross token (by simp) other ho
    have := hlt other (List.mem_append_right _ ho)
    omega

/-- The tokens in front of a cut end in front of it, and those behind it behind it. -/
theorem CutInto.ends {index : Nat} {left right : List Char} {front back : List Token}
    (h : CutInto index left right front back false) :
    (∀ token ∈ front, token.extent.stop ≤ index + left.length) ∧
      ∀ token ∈ back, index + left.length < token.extent.stop := by
  have hfront := (Lexing.arePlaced_read index left).1
  have hback := (Lexing.arePlaced_read (index + left.length) right).1
  have hleft := h.read_append [] fun _ hc => by cases hc
  rw [List.append_nil, Lexing.resume_false, Lexing.read_of_isTrivia .nil, behind,
    List.append_nil] at hleft
  rw [hleft] at hfront
  rw [← Lexing.resume_false, h.resume_right] at hback
  refine ⟨fun token hm => (hfront.placedIn token hm).extent.stop_le, fun token hm => ?_⟩
  have := (hback.placedIn token hm).extent.lower_le
  have := (hback.placedIn token hm).extent.start_lt_stop
  omega

/-- A text can be cut behind any of its tokens, and other text put there. -/
theorem Lexing.exists_read_front {text : List Char} {before rest : List Token}
    (h : read 0 text = ⟨before ++ rest, none⟩) : ∃ left, ∀ other, StartsBlank other →
      read 0 (left ++ other) = behind before (read left.length other) := by
  rcases List.eq_nil_or_concat' before with rfl | ⟨front, token, rfl⟩
  · exact ⟨[], fun other _ => rfl⟩
  · have hplaced := (arePlaced_read 0 text).1
    rw [h] at hplaced
    have hm : token ∈ front ++ [token] ++ rest := by simp
    have hlength : 0 + (text.take token.extent.stop).length = token.extent.stop := by
      have := (hplaced.placedIn token hm).extent.stop_le
      rw [List.length_take]
      omega
    have htouches : Touches token.extent.stop (front ++ [token] ++ rest) := ⟨token, hm, .inr rfl⟩
    rw [← List.take_append_drop token.extent.stop text] at h
    obtain ⟨front', back, inComment, hcut, hinto⟩ := exists_cutInto h
      (hlength.symm ▸ separates_of_touches hplaced htouches)
      (.inr (.inr (hlength.symm ▸ htouches)))
    -- no comment is open where a token ends
    have hopen : inComment = false := by
      by_contra hin
      rw [Bool.not_eq_false] at hin
      exact (hinto.not_touches hin).2 (hcut ▸ hlength.symm ▸ htouches)
    subst hopen
    obtain ⟨hfront, hback⟩ := hinto.ends
    rw [hlength] at hfront hback
    obtain rfl := eq_of_append_eq hcut hplaced.ends.1 hplaced.ends.2 hfront hback
    refine ⟨text.take token.extent.stop, fun other hother => ?_⟩
    rw [hinto.read_append other hother, resume_false, Nat.zero_add]

/-- Lexemes with a blank in front of each. -/
def spaced (lexemes : List Lexeme) : List Char :=
  lexemes.flatMap fun lexeme => ' ' :: lexeme.spelling

theorem startsBlank_spaced (lexemes : List Lexeme) : StartsBlank (spaced lexemes) := by
  intro c hc
  cases lexemes with
  | nil => cases hc
  | cons lexeme lexemes =>
    obtain rfl : ' ' = c := Option.some.inj hc
    decide

theorem spells_spaced {lexemes : List Lexeme} (hs : ∀ lexeme ∈ lexemes, lexeme.Spellable) :
    Spells lexemes (spaced lexemes) := by
  induction lexemes with
  | nil => exact .nil .nil
  | cons lexeme lexemes ih =>
    obtain ⟨hl, hlater⟩ := List.forall_mem_cons.1 hs
    have hends : lexeme.EndsBefore (spaced lexemes) := by
      cases lexeme with
      | word name => exact (startsBlank_spaced lexemes).endsWord
      | mark _ | separator | literal _ _ => trivial
    exact .cons (.blank (by decide) .nil) hl hends (ih hlater)

/-- Any spelling can be put behind the first tokens of a text. -/
theorem exists_text_of_front {source : Text.Source} {before rest : List Token}
    {lexemes : List Lexeme} (h : tokens source = .ok (before ++ rest))
    (hs : ∀ lexeme ∈ lexemes, lexeme.Spellable) :
    ∃ text more, read 0 (Text.Source.ofString text).text = ⟨before ++ more, none⟩ ∧
      more.map Token.kindAndValue = lexemes.map Lexeme.kindAndValue := by
  obtain ⟨left, hleft⟩ := Lexing.exists_read_front (tokens_eq_ok_iff.1 h).1
  obtain ⟨more, hmore, hk⟩ := (spells_spaced hs).exists_tokens left.length
  refine ⟨String.ofList (left ++ spaced lexemes), more, ?_, hk⟩
  have htext : (Text.Source.ofString (String.ofList (left ++ spaced lexemes))).text =
      left ++ spaced lexemes := by
    simp [Text.Source.ofString, Text.Source.ofList]
  rw [htext, hleft _ (startsBlank_spaced lexemes), hmore]
  rfl

/-! ### Completions -/

namespace Reader

variable {σ α : Type} {reader : Reader σ α} {state next : σ} {before rest more : List Token}
  {lexeme : Lexeme} {lexemes : List Lexeme}

/-- Tokens that spell the lexemes are read to their end. -/
def Completes (reader : Reader σ α) (state : σ) (lexemes : List Lexeme) : Prop :=
  ∀ tokens last, tokens.map Token.kindAndValue = lexemes.map Lexeme.kindAndValue →
    ∃ answer, reader.run state last tokens = .ok answer

theorem Completes.nil (h : ∀ last, ∃ answer, reader.run state last [] = .ok answer) :
    reader.Completes state [] := by
  intro tokens last hm
  obtain rfl := List.map_eq_nil_iff.1 hm
  exact h last

theorem Completes.cons (h : reader.Completes next lexemes)
    (hs : ∀ token rest, token.kindAndValue = lexeme.kindAndValue →
      reader.step state token rest = .ok next) :
    reader.Completes state (lexeme :: lexemes) := by
  intro tokens last hm
  obtain ⟨token, rest, rfl, hk, hm⟩ := List.map_eq_cons_iff.1 hm
  rw [reader.run_cons, hs token rest hk]
  exact h rest token.extent hm

theorem Completes.accepts (h : reader.Completes state lexemes)
    (ha : reader.after reader.start before rest = .ok state)
    (hm : more.map Token.kindAndValue = lexemes.map Lexeme.kindAndValue) :
    reader.Accepts (before ++ more) := by
  obtain ⟨answer, hrun⟩ := h more (lastExtent ⟨0, 0⟩ before) hm
  exact ⟨⟨0, 0⟩, answer, by rw [run_eq_of_after (after_eq_ok_of_map_eq ha rfl more), hrun]⟩

end Reader

namespace Reading

/-- The lexemes that finish the declaration at hand. -/
def completion (reading : Reading) : List Lexeme :=
  match reading.progress with
  | .between | .complete => []
  | .named _ => [.mark '(', .mark ')', .separator, .mark '=', .literal .quoted ""]
  | .opened _ _ | .listed _ _ => [.mark ')', .separator, .mark '=', .literal .quoted ""]
  | .closed _ _ => [.separator, .mark '=', .literal .quoted ""]
  | .separated _ _ => [.mark '=', .literal .quoted ""]
  | .assigned _ _ => [.literal .quoted ""]

theorem spellable_completion (reading : Reading) :
    ∀ lexeme ∈ reading.completion, lexeme.Spellable := by
  unfold completion
  split <;> simp [Lexeme.Spellable, marks, Form.Fits]

variable {before : Definitions} {name : String} {parameters : List String}

theorem completes_of_isFinished {reading : Reading} (h : reading.isFinished = true) :
    reader.Completes reading [] :=
  .nil fun _ => ⟨reading.definitions, run_eq_ok_iff.2 (.nil h)⟩

/-- An empty body is never refused. -/
theorem completes_assigned :
    reader.Completes ⟨before, .assigned name parameters⟩ [.literal .quoted ""] := by
  let definition : Definition := ⟨"", [], some (NameSet.ofList parameters)⟩
  have hnext : reader.Completes ⟨before ++ [(name, definition)], .complete⟩ [] :=
    completes_of_isFinished rfl
  have hscan : Body.scan "".toList = .ok [] := Body.scanFrom_of_not_mem (by decide)
  refine hnext.cons fun token rest hk => step_eq_ok_iff.2 ?_
  have hvalue : token.value = "" := congrArg Prod.snd hk
  have hdefine : define parameters token = .ok definition :=
    define_eq_ok_iff.2 ⟨[], hvalue ▸ hscan, hvalue ▸ rfl⟩
  exact .literal (kind_eq_of_kindAndValue hk) hdefine

theorem completes_separated : reader.Completes ⟨before, .separated name parameters⟩
    [.mark '=', .literal .quoted ""] :=
  completes_assigned.cons fun _ _ hk => step_eq_ok_iff.2 (.equals (kind_eq_of_kindAndValue hk))

theorem completes_closed : reader.Completes ⟨before, .closed name parameters⟩
    [.separator, .mark '=', .literal .quoted ""] :=
  completes_separated.cons fun _ _ hk =>
    step_eq_ok_iff.2 (.pathSeparator (kind_eq_of_kindAndValue hk))

theorem completes_opened : reader.Completes ⟨before, .opened name parameters⟩
    [.mark ')', .separator, .mark '=', .literal .quoted ""] :=
  completes_closed.cons fun _ _ hk => step_eq_ok_iff.2 (.closeOpened (kind_eq_of_kindAndValue hk))

/-- Whatever has been read of a declaration, it can be finished. -/
theorem completes (reading : Reading) : reader.Completes reading reading.completion := by
  obtain ⟨before, progress⟩ := reading
  cases progress with
  | between | complete => exact completes_of_isFinished rfl
  | named name =>
    exact completes_opened.cons fun _ _ hk =>
      step_eq_ok_iff.2 (.leftParen (kind_eq_of_kindAndValue hk))
  | opened name parameters => exact completes_opened
  | listed name parameters =>
    exact completes_closed.cons fun _ _ hk =>
      step_eq_ok_iff.2 (.closeListed (kind_eq_of_kindAndValue hk))
  | closed name parameters => exact completes_closed
  | separated name parameters => exact completes_separated
  | assigned name parameters => exact completes_assigned

end Reading

namespace StaticReading

/-- The lexemes that finish a static declaration.  It is called `g` where it has no name yet. -/
def completion : StaticReading → List Lexeme
  | .start | .published =>
    [.word "static", .word "ref", .word "g", .mark '\x7b', .mark '\x7d']
  | .fixed _ => [.word "ref", .word "g", .mark '\x7b', .mark '\x7d']
  | .referenced _ => [.word "g", .mark '\x7b', .mark '\x7d']
  | .named _ _ => [.mark '\x7b', .mark '\x7d']
  | .inside _ _ reading => reading.completion ++ [.mark '\x7d']
  | .complete _ => []

theorem spellable_completion (reading : StaticReading) :
    ∀ lexeme ∈ reading.completion, lexeme.Spellable := by
  have hwords : (Lexeme.word "static").Spellable ∧ (Lexeme.word "ref").Spellable ∧
      (Lexeme.word "g").Spellable := by
    simp only [Lexeme.Spellable]
    decide
  have hbraces : (Lexeme.mark '\x7b').Spellable ∧ (Lexeme.mark '\x7d').Spellable := by
    simp [Lexeme.Spellable, marks]
  intro lexeme hm
  cases reading with
  | inside isPublic name reading =>
    rcases List.mem_append.1 hm with hm | hm
    · exact reading.spellable_completion lexeme hm
    · exact List.mem_singleton.1 hm ▸ hbraces.2
  | complete _ => cases hm
  | start | published | fixed _ | referenced _ | named _ _ =>
    simp only [completion, List.mem_cons, List.not_mem_nil, or_false] at hm
    grind

variable {isPublic : Bool} {name : String} {token : Token}

theorem isWord_of_kindAndValue {word : String}
    (h : token.kindAndValue = (Lexeme.word word).kindAndValue) : isWord word token = true :=
  isWord_iff.2 (Prod.mk.inj h)

theorem completes_inside (reading : Reading) : reader.Completes (.inside isPublic name reading)
    (reading.completion ++ [.mark '\x7d']) := by
  intro tokens last hm
  rw [List.map_append] at hm
  obtain ⟨inner, _, rfl, hinner, hbrace⟩ := List.map_eq_append_iff.1 hm
  obtain ⟨brace, _, rfl, hk, hnone⟩ := List.map_eq_cons_iff.1 hbrace
  obtain rfl := List.map_eq_nil_iff.1 hnone
  obtain ⟨definitions, hrun⟩ := reading.completes inner last hinner
  exact ⟨_, run_inside_eq_ok_iff.2 ⟨inner, brace, definitions, rfl, Reading.run_eq_ok_iff.1 hrun,
    kind_eq_of_kindAndValue hk, rfl⟩⟩

theorem completes_named : reader.Completes (.named isPublic name) [.mark '\x7b', .mark '\x7d'] :=
  (completes_inside Reading.start).cons fun _ _ hk =>
    step_named_eq_ok_iff.2 ⟨kind_eq_of_kindAndValue hk, rfl⟩

theorem completes_referenced : reader.Completes (.referenced isPublic)
    [.word "g", .mark '\x7b', .mark '\x7d'] := by
  have hname : IsName "g" := by decide
  exact completes_named.cons fun _ _ hk =>
    step_referenced_eq_ok_iff.2 ⟨"g", name?_eq_some_of_kindAndValue hname hk, rfl⟩

theorem completes_fixed : reader.Completes (.fixed isPublic)
    [.word "ref", .word "g", .mark '\x7b', .mark '\x7d'] :=
  completes_referenced.cons fun _ _ hk => step_fixed_eq_ok_iff.2 ⟨isWord_of_kindAndValue hk, rfl⟩

/-- Whatever has been read of a static declaration, it can be finished. -/
theorem completes (reading : StaticReading) : reader.Completes reading reading.completion := by
  cases reading with
  | start =>
    exact completes_fixed.cons fun _ _ hk =>
      step_start_eq_ok_iff.2 (.inr ⟨isWord_of_kindAndValue hk, rfl⟩)
  | published =>
    exact completes_fixed.cons fun _ _ hk =>
      step_published_eq_ok_iff.2 ⟨isWord_of_kindAndValue hk, rfl⟩
  | fixed isPublic => exact completes_fixed
  | referenced isPublic => exact completes_referenced
  | named isPublic name => exact completes_named
  | inside isPublic name reading => exact completes_inside reading
  | complete declaration => exact .nil fun _ => ⟨declaration, rfl⟩

end StaticReading

/-! ### The earliest token -/

/-- The tokens are the first ones of a text that compiles. -/
def IsViable (compiles : String → Prop) (front : List Token) : Prop :=
  ∃ text more, tokens (Text.Source.ofString text) = .ok (front ++ more) ∧ compiles text

/-- Reading fails as soon as it can: at a token that makes the tokens so far hopeless, though those
in front of it are not, or at the end of tokens that lack something.  The token is the one in which
what is reported starts. -/
inductive Reader.FailsEarly {σ α : Type} (reader : Reader σ α) (compiles : String → Prop)
    (first : Text.Extent) : List Token → Fault → Prop
  | atToken {before rest : List Token} {token : Token} {fault : Fault} :
      reader.StopsAt before token rest fault →
      token.extent.start ≤ fault.extent.start → fault.extent.start < token.extent.stop →
      IsViable compiles before →
      (∀ tokens, (before ++ [token]).map Token.kindAndValue <+: tokens.map Token.kindAndValue →
        ¬reader.Accepts tokens) →
      FailsEarly reader compiles first (before ++ token :: rest) fault
  | atEnd {spelt : List Token} {fault : Fault} : reader.StopsAtEnd first spelt fault →
      IsViable compiles spelt →
      (∀ tokens, tokens.map Token.kindAndValue = spelt.map Token.kindAndValue →
        ¬reader.Accepts tokens) →
      FailsEarly reader compiles first spelt fault

/-- A reader that can always be completed fails as soon as it can. -/
theorem Reader.failsEarly {σ α : Type} {reader : Reader σ α} {compiles : String → Prop}
    {completion : σ → List Lexeme} {source : Text.Source} {spelt : List Token} {fault : Fault}
    (hspellable : ∀ state, ∀ lexeme ∈ completion state, lexeme.Spellable)
    (hcompletes : ∀ state, reader.Completes state (completion state))
    (hblames : ∀ {state token rest fault}, reader.step state token rest = .error fault →
      BlamesStep token rest fault)
    (hcompiles : ∀ {text spelt}, read 0 (Text.Source.ofString text).text = ⟨spelt, none⟩ →
      reader.Accepts spelt → tokens (Text.Source.ofString text) = .ok spelt ∧ compiles text)
    (h : tokens source = .ok spelt)
    (hrun : reader.run reader.start source.firstCharacter spelt = .error fault) :
    reader.FailsEarly compiles source.firstCharacter spelt fault := by
  have hviable : ∀ {before rest later state}, spelt = before ++ rest →
      reader.after reader.start before later = .ok state → IsViable compiles before := by
    rintro before rest later state rfl ha
    obtain ⟨text, more, hread, hm⟩ := exists_text_of_front h (hspellable state)
    obtain ⟨ht, hc⟩ := hcompiles hread ((hcompletes state).accepts ha hm)
    exact ⟨text, more, ht, hc⟩
  rcases exists_stop hrun with ⟨before, token, rest, rfl, hstop⟩ | hend
  · obtain ⟨state, ha, hs⟩ := hstop
    have hm : token ∈ (read 0 source.text).tokens := by
      simp [(tokens_eq_ok_iff.1 h).1]
    obtain ⟨hle, hlt⟩ := (hblames hs).start_in_extent hm
    exact .atToken ⟨state, ha, hs⟩ hle hlt (hviable rfl ha)
      fun _ => StopsAt.not_accepts ⟨state, ha, hs⟩
  · obtain ⟨state, ha, hs⟩ := hend
    exact .atEnd ⟨state, ha, hs⟩ (hviable (List.append_nil spelt).symm ha)
      fun _ => StopsAtEnd.not_accepts ⟨state, ha, hs⟩

theorem tokens_and_compileGroup_of_accepts {text : String} {spelt : List Token}
    (h : read 0 (Text.Source.ofString text).text = ⟨spelt, none⟩)
    (ha : Reading.reader.Accepts spelt) :
    tokens (Text.Source.ofString text) = .ok spelt ∧ ∃ group, compileGroup text = .ok group := by
  obtain ⟨definitions, hs, hd⟩ := Reading.accepts_iff.1 ha
  have ht := tokens_eq_ok_iff.2 ⟨h, Nesting.check_of_sequence hs⟩
  refine ⟨ht, ⟨definitions⟩, ?_⟩
  have hread := readDefinitions_eq_ok_iff.2 ⟨spelt, ht, hs, hd⟩
  rw [compileGroup, compileDefinitions_eq_ok_iff.2 hread]
  rfl

theorem tokens_and_compileStatic_of_accepts {text : String} {spelt : List Token}
    (h : read 0 (Text.Source.ofString text).text = ⟨spelt, none⟩)
    (ha : StaticReading.reader.Accepts spelt) : tokens (Text.Source.ofString text) = .ok spelt ∧
      ∃ declaration, compileStatic text = .ok declaration := by
  obtain ⟨declaration, hs⟩ := StaticReading.accepts_iff.1 ha
  have ht := tokens_eq_ok_iff.2 ⟨h, Nesting.check_of_declaresStatic hs⟩
  exact ⟨ht, declaration,
    compileStatic_eq_ok_iff.2 (readStatic_eq_ok_iff.2 ⟨spelt, ht, hs⟩)⟩

/-- **Errors are reported at the earliest token.**  Where the tokens of a text are no group, or no
static declaration, those in front of the one that is reported are the first ones of a text that
compiles, and no tokens that begin with those up to it are accepted; where the end is reported, the
tokens themselves are the first ones of a text that compiles. -/
theorem errors_are_at_the_earliest_token {text : String} {spelt : List Token}
    (h : tokens (Text.Source.ofString text) = .ok spelt) :
    (∀ e, compileGroup text = .error e →
      Reading.reader.FailsEarly (fun text => ∃ group, compileGroup text = .ok group)
        (Text.Source.ofString text).firstCharacter spelt e.fault) ∧
    ∀ e, compileStatic text = .error e →
      StaticReading.reader.FailsEarly
        (fun text => ∃ declaration, compileStatic text = .ok declaration)
        (Text.Source.ofString text).firstCharacter spelt e.fault := by
  constructor
  · intro e he
    obtain ⟨hsource, hread⟩ := compileGroup_eq_error_iff.1 he
    rw [hsource, readDefinitions_of_tokens h] at hread
    exact Reader.failsEarly Reading.spellable_completion Reading.completes Reading.blamesStep
      tokens_and_compileGroup_of_accepts h hread
  · intro e he
    obtain ⟨hsource, hread⟩ := compileStatic_eq_error_iff.1 he
    rw [hsource, readStatic_of_tokens h] at hread
    exact Reader.failsEarly StaticReading.spellable_completion StaticReading.completes
      StaticReading.blamesStep tokens_and_compileStatic_of_accepts h hread

theorem errors_are_at_the_second_of_two_names :
    ∃ spelt e, tokens (.ofString "a()::=\"\";a()::=\"<\"") = .ok spelt ∧
      compileGroup "a()::=\"\";a()::=\"<\"" = .error e ∧
      e.fault = ⟨.duplicateTemplate "a", ⟨9, 10⟩⟩ ∧
      Reading.reader.FailsEarly (fun text => ∃ group, compileGroup text = .ok group)
        (Text.Source.ofString "a()::=\"\";a()::=\"<\"").firstCharacter spelt e.fault := by
  have htokens : tokens (.ofString "a()::=\"\";a()::=\"<\"") =
      .ok [⟨.identifier, "a", ⟨0, 1⟩, []⟩, ⟨.leftParen, "(", ⟨1, 2⟩, []⟩,
        ⟨.rightParen, ")", ⟨2, 3⟩, []⟩, ⟨.pathSeparator, "::", ⟨3, 5⟩, []⟩,
        ⟨.equals, "=", ⟨5, 6⟩, []⟩, ⟨.string, "", ⟨6, 8⟩, [7]⟩, ⟨.semicolon, ";", ⟨8, 9⟩, []⟩,
        ⟨.identifier, "a", ⟨9, 10⟩, []⟩, ⟨.leftParen, "(", ⟨10, 11⟩, []⟩,
        ⟨.rightParen, ")", ⟨11, 12⟩, []⟩, ⟨.pathSeparator, "::", ⟨12, 14⟩, []⟩,
        ⟨.equals, "=", ⟨14, 15⟩, []⟩, ⟨.string, "<", ⟨15, 18⟩, [16, 17]⟩] := by cbv
  have hcompile : compileGroup "a()::=\"\";a()::=\"<\"" =
      .error ⟨⟨.duplicateTemplate "a", ⟨9, 10⟩⟩, .ofString "a()::=\"\";a()::=\"<\""⟩ := by cbv
  exact ⟨_, _, htokens, hcompile, rfl, (errors_are_at_the_earliest_token htokens).1 _ hcompile⟩

end Group

end TextTemplate
