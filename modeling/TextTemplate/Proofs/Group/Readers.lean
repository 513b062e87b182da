import TextTemplate.Proofs.Group.Grammar
import TextTemplate.Proofs.Group.Layout

/-!
# Where reading stops

Groups and static declarations are read in the same way: token by token, with a state in between.
A `Reader` is such a way, with what it may depend on: a step looks at the kind and the value of its
token, and the places of tokens only show in the places of faults.

* `Reader.after` is the state behind a front of the tokens, and `Reader.run_append` splits a run
  there;
* `Reader.exists_stop`: a run that fails stops at one of the tokens, or at the end;
* `Reading.reader` and `StaticReading.reader` are the two ways to read, and what they answer for the
  tokens of a text is what `readDefinitions` and `readStatic` answer (`readDefinitions_of_tokens`,
  `readStatic_of_tokens`).
-/

namespace TextTemplate

namespace Group

/-- A way of reading tokens one by one. -/
structure Reader (σ α : Type) where
  start : σ
  /-- Reads one more token, which is followed by others. -/
  step : σ → Token → List Token → Except Fault σ
  /-- Reads the remaining tokens, behind a token of the given range. -/
  run : σ → Text.Extent → List Token → Except Fault α
  run_cons : ∀ {state : σ} {last : Text.Extent} {token : Token} {rest : List Token},
    run state last (token :: rest) =
      (step state token rest).bind fun next => run next token.extent rest
  step_congr : ∀ (state : σ) {token token' : Token} (rest rest' : List Token),
    token'.kindAndValue = token.kindAndValue →
      (step state token' rest').mapError Fault.problem =
        (step state token rest).mapError Fault.problem
  run_congr : ∀ (state : σ) (last last' : Text.Extent) {tokens tokens' : List Token},
    tokens'.map Token.kindAndValue = tokens.map Token.kindAndValue →
      (run state last' tokens').mapError Fault.problem =
        (run state last tokens).mapError Fault.problem

namespace Reader

variable {σ α : Type} (reader : Reader σ α)

/-! ### Fronts -/

/-- The state behind `front`, which is followed by `rest`. -/
def after (state : σ) : List Token → List Token → Except Fault σ
  | [], _ => .ok state
  | token :: front, rest =>
    (reader.step state token (front ++ rest)).bind fun next => after next front rest

/-- The range of the last token, where `first` is that of the one before them. -/
def lastExtent (first : Text.Extent) : List Token → Text.Extent
  | [] => first
  | token :: rest => lastExtent token.extent rest

variable {reader} {state reached : σ} {last : Text.Extent} {front front' rest rest' : List Token}

/-- What follows makes no difference to the state. -/
theorem after_eq_ok_of_map_eq (h : reader.after state front rest = .ok reached)
    (hf : front'.map Token.kindAndValue = front.map Token.kindAndValue) (rest' : List Token) :
    reader.after state front' rest' = .ok reached := by
  induction front generalizing state front' with
  | nil =>
    obtain rfl := List.map_eq_nil_iff.1 hf
    exact h
  | cons token front ih =>
    obtain ⟨token', front', rfl, hk, hf⟩ := List.map_eq_cons_iff.1 hf
    have hstep := reader.step_congr state (front ++ rest) (front' ++ rest') hk
    rw [after] at h ⊢
    cases hs : reader.step state token (front ++ rest) with
    | error fault => simp [hs, Except.bind] at h
    | ok next =>
      rw [hs, Except.mapError_ok, Except.mapError_eq_ok_iff] at hstep
      rw [hs] at h
      rw [hstep]
      exact ih h hf

theorem run_append (state : σ) (last : Text.Extent) (front rest : List Token) :
    reader.run state last (front ++ rest) =
      (reader.after state front rest).bind fun reached =>
        reader.run reached (lastExtent last front) rest := by
  induction front generalizing state last with
  | nil => rfl
  | cons token front ih =>
    rw [List.cons_append, reader.run_cons, after]
    cases reader.step state token (front ++ rest) with
    | error fault => rfl
    | ok next => exact ih next token.extent

theorem run_eq_of_after (h : reader.after state front rest = .ok reached) (last : Text.Extent) :
    reader.run state last (front ++ rest) = reader.run reached (lastExtent last front) rest := by
  rw [run_append, h]
  rfl

/-! ### Stops -/

variable {tokens tokens' before more : List Token} {token : Token} {fault : Fault}
  {first : Text.Extent}

/-- Reading gets to `token`, behind `before`, and no further. -/
def StopsAt (reader : Reader σ α) (before : List Token) (token : Token) (rest : List Token)
    (fault : Fault) : Prop :=
  ∃ state, reader.after reader.start before (token :: rest) = .ok state ∧
    reader.step state token rest = .error fault

/-- Reading gets to the end of the tokens, where more would have to follow. -/
def StopsAtEnd (reader : Reader σ α) (first : Text.Extent) (tokens : List Token) (fault : Fault) :
    Prop :=
  ∃ state, reader.after reader.start tokens [] = .ok state ∧
    reader.run state (lastExtent first tokens) [] = .error fault

/-- The tokens are read to their end. -/
def Accepts (reader : Reader σ α) (tokens : List Token) : Prop :=
  ∃ last answer, reader.run reader.start last tokens = .ok answer

/-- A run that fails fails at one of the tokens, or at the end. -/
theorem exists_stop_from (h : reader.run state last tokens = .error fault) :
    (∃ before token rest reached, tokens = before ++ token :: rest ∧
      reader.after state before (token :: rest) = .ok reached ∧
      reader.step reached token rest = .error fault) ∨
    ∃ reached, reader.after state tokens [] = .ok reached ∧
      reader.run reached (lastExtent last tokens) [] = .error fault := by
  induction tokens generalizing state last with
  | nil => exact .inr ⟨state, rfl, h⟩
  | cons token tokens ih =>
    rw [reader.run_cons] at h
    cases hs : reader.step state token tokens with
    | error stopped =>
      rw [hs] at h
      obtain rfl := Except.error.inj h
      exact .inl ⟨[], token, tokens, state, rfl, rfl, hs⟩
    | ok next =>
      rw [hs] at h
      rcases ih h with ⟨before, stop, rest, reached, rfl, ha, hstop⟩ | ⟨reached, ha, hend⟩
      · refine .inl ⟨token :: before, stop, rest, reached, rfl, ?_, hstop⟩
        rw [after, hs]
        exact ha
      · refine .inr ⟨reached, ?_, hend⟩
        rw [after, List.append_nil, hs]
        exact ha

theorem exists_stop (h : reader.run reader.start first tokens = .error fault) :
    (∃ before token rest, tokens = before ++ token :: rest ∧
      reader.StopsAt before token rest fault) ∨ reader.StopsAtEnd first tokens fault := by
  rcases exists_stop_from h with ⟨before, token, rest, reached, rfl, hstop⟩ | hend
  · exact .inl ⟨before, token, rest, rfl, reached, hstop⟩
  · exact .inr hend

/-- Where reading stops at a token, it stops at that token whatever follows. -/
theorem StopsAt.not_accepts (h : reader.StopsAt before token rest fault)
    (hp : (before ++ [token]).map Token.kindAndValue <+: tokens.map Token.kindAndValue) :
    ¬reader.Accepts tokens := by
  rintro ⟨last, answer, hrun⟩
  obtain ⟨state, ha, hs⟩ := h
  -- the tokens begin with others of the same kinds and values
  obtain ⟨later, hmap⟩ := hp
  obtain ⟨front, later, rfl, hfront, -⟩ := List.map_eq_append_iff.1 hmap.symm
  rw [List.map_append] at hfront
  obtain ⟨front, stop, rfl, hbefore, htoken⟩ := List.map_eq_append_iff.1 hfront
  obtain ⟨stop, _, rfl, hk, hnone⟩ := List.map_eq_cons_iff.1 htoken
  obtain rfl := List.map_eq_nil_iff.1 hnone
  have hstep := reader.step_congr state rest later hk
  rw [List.append_assoc, List.singleton_append,
    run_eq_of_after (after_eq_ok_of_map_eq ha hbefore _), reader.run_cons] at hrun
  cases hnext : reader.step state stop later with
  | error fault => simp [hnext, Except.bind] at hrun
  | ok next => simp [hnext, hs] at hstep

theorem StopsAtEnd.not_accepts (h : reader.StopsAtEnd first tokens fault)
    (hm : tokens'.map Token.kindAndValue = tokens.map Token.kindAndValue) :
    ¬reader.Accepts tokens' := by
  rintro ⟨last, answer, hrun⟩
  obtain ⟨state, ha, hend⟩ := h
  have hsame := reader.run_congr reader.start first last hm
  have hstopped := run_eq_of_after ha first
  rw [List.append_nil, hend] at hstopped
  simp [hrun, hstopped] at hsame

end Reader

/-! ### The two readers -/

/-- Reads a sequence of declarations. -/
def Reading.reader : Reader Reading Definitions where
  start := Reading.start
  step := Reading.step
  run := Reading.run
  run_cons := Reading.run_cons _
  step_congr _ _ _ _ _ := Reading.step_congr
  run_congr _ _ _ _ _ := Reading.run_congr

/-- Reads a static declaration. -/
def StaticReading.reader : Reader StaticReading StaticDeclaration where
  start := StaticReading.start
  step := StaticReading.step
  run := StaticReading.run
  run_cons := StaticReading.run_cons _
  step_congr _ _ _ _ _ := StaticReading.step_congr
  run_congr _ _ _ _ _ := StaticReading.run_congr

theorem Reading.accepts_iff {tokens : List Token} : Reading.reader.Accepts tokens ↔
    ∃ definitions, Sequence tokens definitions ∧ (Entries.keys definitions).Nodup := by
  constructor
  · rintro ⟨last, definitions, h⟩
    exact ⟨definitions, Reading.reads_start_iff.1 (Reading.run_eq_ok_iff.1 h)⟩
  · rintro ⟨definitions, h⟩
    exact ⟨⟨0, 0⟩, definitions, Reading.run_eq_ok_iff.2 (Reading.reads_start_iff.2 h)⟩

theorem StaticReading.accepts_iff {tokens : List Token} :
    StaticReading.reader.Accepts tokens ↔ ∃ declaration, DeclaresStatic tokens declaration := by
  constructor
  · rintro ⟨last, declaration, h⟩
    exact ⟨declaration, StaticReading.run_start_eq_ok_iff.1 h⟩
  · rintro ⟨declaration, h⟩
    exact ⟨⟨0, 0⟩, declaration, StaticReading.run_start_eq_ok_iff.2 h⟩

/-! ### Texts -/

section

variable {text : String} {spelt : List Token} {e : CompileError}

theorem compileGroup_eq_error_iff : compileGroup text = .error e ↔
    e.source = Text.Source.ofString text ∧ readDefinitions e.source = .error e.fault := by
  rw [compileGroup, Except.map_eq_error_iff, compileDefinitions]
  obtain ⟨fault, source⟩ := e
  cases hr : readDefinitions (Text.Source.ofString text) <;> grind

theorem compileStatic_eq_error_iff : compileStatic text = .error e ↔
    e.source = Text.Source.ofString text ∧ readStatic e.source = .error e.fault := by
  rw [compileStatic]
  obtain ⟨fault, source⟩ := e
  cases hr : readStatic (Text.Source.ofString text) <;> grind

theorem readDefinitions_of_tokens {source : Text.Source} (h : tokens source = .ok spelt) :
    readDefinitions source =
      Reading.reader.run Reading.reader.start source.firstCharacter spelt := by
  rw [readDefinitions, h]
  rfl

theorem readStatic_of_tokens {source : Text.Source} (h : tokens source = .ok spelt) :
    readStatic source =
      StaticReading.reader.run StaticReading.reader.start source.firstCharacter spelt := by
  rw [readStatic, h]
  rfl

end

end Group

end TextTemplate
