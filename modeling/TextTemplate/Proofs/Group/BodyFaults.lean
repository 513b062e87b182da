import TextTemplate.Proofs.Places.Locations
import TextTemplate.Proofs.Places.Declarations
import TextTemplate.Proofs.Group.Offsets
import TextTemplate.Proofs.Group.Readers

/-!
# Faults of bodies

A body is read by itself, and what is wrong with it is moved to the text by the offsets of its
literal.  A step of a reader fails in one of two ways (`Reading.blamesStep`): the token is
blamed, or it is a literal whose body is refused.  In the second case the range in the body and the
range in the text correspond by the offsets, and the latter is not empty and lies in the content of
the literal, whatever the text in front of it is decoded from (`Token.exists_moved`).
-/

namespace TextTemplate

namespace Group

/-! ### Literals of a text -/

namespace Token

/-- The literal is written in the text, with its content from the index `lower` up to the index
`close` of its closing delimiter. -/
def IsWritten (literal : Token) (source : Text.Source) (lower close : Nat) : Prop :=
  ∃ (delimiters : Delimiters) (before spelt later : List Char),
    source.text = before ++ delimiters.opening ++ spelt ++ delimiters.closing ++ later ∧
    literal.extent = ⟨before.length,
      (before ++ delimiters.opening ++ spelt ++ delimiters.closing).length⟩ ∧
    lower = (before ++ delimiters.opening).length ∧
    close = (before ++ delimiters.opening ++ spelt).length

variable {source : Text.Source} {literal token : Token} {lower close : Nat}

theorem IsWritten.in_extent (h : literal.IsWritten source lower close) :
    literal.extent.start < lower ∧ close < literal.extent.stop := by
  obtain ⟨delimiters, before, spelt, later, -, hextent, rfl, rfl⟩ := h
  have := delimiters.length_opening_pos
  have := delimiters.length_closing_pos
  simp only [hextent, List.length_append]
  omega

/-- The offsets of a literal are indices of its content, or that of its closing delimiter. -/
theorem exists_isWritten (hm : literal ∈ (Lexing.read 0 source.text).tokens)
    (hk : literal.kind = .string) : ∃ lower close, literal.IsWritten source lower close ∧
      ∀ offset ∈ literal.offsets, lower ≤ offset ∧ offset ≤ close := by
  obtain ⟨before, c, rest, htext, -, hread⟩ := Lexing.exists_read_of_mem hm
  obtain ⟨delimiters, spelt, later, content, hliteral, henclosed, rfl⟩ :=
    exists_delimiters hread hk
  rw [Nat.zero_add, ← List.length_append] at henclosed
  have hclose : content.close = (before ++ delimiters.opening ++ spelt).length := by
    rw [henclosed.close_eq, ← List.length_append]
  refine ⟨_, _, ⟨delimiters, before, spelt, later, ?_, ?_, rfl, rfl⟩, fun offset ho => ⟨?_, ?_⟩⟩
  · rw [htext, hliteral]
    simp
  · rw [ofContent, hclose, Nat.zero_add, ← List.length_append]
  · exact henclosed.placed.lower_le offset ho
  · exact hclose ▸ henclosed.placed.offset_le offset ho

/-- **A fault of a body is moved to a range of its literal**, by the offsets of both ends. -/
theorem exists_moved (hm : literal ∈ (Lexing.read 0 source.text).tokens)
    (hk : literal.kind = .string) {fault : Fault}
    (hf : Body.scan literal.value.toList = .error fault) :
    ∃ first last : Nat, literal.offsets[fault.extent.start]? = some first ∧
      literal.offsets[fault.extent.stop]? = some last ∧
      fault.relocate literal.offsets = ⟨fault.problem, ⟨first, last⟩⟩ ∧ first < last ∧
      ∃ lower close, literal.IsWritten source lower close ∧ lower ≤ first ∧ last ≤ close := by
  have hplaced := (Lexing.arePlaced_read 0 source.text).1.placedIn literal hm
  have hwithin := Body.placesFaults_scan literal.value.toList
  rw [hf] at hwithin
  obtain ⟨hstart, hstop⟩ := extent_lt_length_offsets hplaced hk hf
  obtain ⟨lower, close, hwritten, hbounds⟩ := exists_isWritten hm hk
  refine ⟨literal.offsets[fault.extent.start], literal.offsets[fault.extent.stop],
    List.getElem?_eq_getElem hstart, List.getElem?_eq_getElem hstop, ?_, ?_, lower, close,
    hwritten, (hbounds _ (List.getElem_mem hstart)).1, (hbounds _ (List.getElem_mem hstop)).2⟩
  · rw [Fault.relocate, ← List.getElem_eq_getD, ← List.getElem_eq_getD]
  · exact List.pairwise_iff_getElem.1 hplaced.ascending _ _ hstart hstop hwithin.start_lt_stop

end Token

/-! ### How a step fails -/

/-- The token is blamed, or it is a literal whose body is refused. -/
def BlamesStep (token : Token) (rest : List Token) (fault : Fault) : Prop :=
  fault.extent = blamed token rest ∨ token.kind = .string ∧
    ∃ inBody, Body.scan token.value.toList = .error inBody ∧
      fault = inBody.relocate token.offsets

namespace Reading

variable {reading : Reading} {token : Token} {rest : List Token} {fault : Fault}

theorem define_eq_error_iff {parameters : List String} :
    define parameters token = .error fault ↔
      ∃ inBody, Body.scan token.value.toList = .error inBody ∧
        fault = inBody.relocate token.offsets := by
  unfold define
  cases Body.scan token.value.toList <;> simp [eq_comm]

theorem blamesStep_startDeclaration (h : reading.startDeclaration token rest = .error fault) :
    BlamesStep token rest fault := by
  unfold startDeclaration at h
  split at h
  · cases h
    exact .inl rfl
  · split at h
    · cases h
      exact .inl rfl
    · cases h

theorem blamesStep (h : reading.step token rest = .error fault) :
    BlamesStep token rest fault := by
  unfold step at h
  dsimp only at h
  split at h
  -- a declaration starts; a parameter is read; a body is read; the token is not what is asked for
  case h_1 | h_3 => exact blamesStep_startDeclaration h
  case h_6 =>
    split at h
    · cases h
      exact .inl rfl
    · cases h
  case h_11 hk =>
    exact .inr ⟨hk, define_eq_error_iff.1 (Except.map_eq_error_iff.1 h)⟩
  case h_12 =>
    cases h
    exact .inl rfl
  all_goals cases h

end Reading

theorem StaticReading.blamesStep {reading : StaticReading} {token : Token} {rest : List Token}
    {fault : Fault} (h : reading.step token rest = .error fault) :
    BlamesStep token rest fault := by
  unfold step at h
  cases reading with
  | inside isPublic name reading =>
    dsimp only at h
    split at h
    · cases h
    · exact Reading.blamesStep (Except.map_eq_error_iff.1 h)
  | start | published | fixed _ | referenced _ | named _ _ | complete _ =>
    dsimp only at h
    repeat' split at h
    all_goals first | cases h; exact .inl rfl | cases h

/-- What is reported for a step starts in its token. -/
theorem BlamesStep.start_in_extent {source : Text.Source} {token : Token} {rest : List Token}
    {fault : Fault} (h : BlamesStep token rest fault)
    (hm : token ∈ (Lexing.read 0 source.text).tokens) :
    token.extent.start ≤ fault.extent.start ∧ fault.extent.start < token.extent.stop := by
  rcases h with h | ⟨hk, inBody, hs, rfl⟩
  · have hlt := ((Lexing.arePlaced_read 0 source.text).1.placedIn token hm).extent.start_lt_stop
    have hstart : (blamed token rest).start = token.extent.start := by
      unfold blamed
      repeat' split
      all_goals rfl
    rw [h, hstart]
    exact ⟨Nat.le_refl _, hlt⟩
  · obtain ⟨first, last, -, -, hmoved, hlt, lower, close, hwritten, hlower, hclose⟩ :=
      Token.exists_moved hm hk hs
    have := hwritten.in_extent
    rw [hmoved]
    dsimp only
    omega

/-! ### Compile errors -/

/-- Compiling the text as a group, or as a static declaration, fails with the error in the body of a
declaration: everything in front of it is read, a literal is asked for and found, and reading it
fails. -/
inductive FailsInBody (text : String) (literal : Token) (e : CompileError) : Prop
  | group {before rest : List Token} {definitions : Definitions} {name : String}
      {parameters : List String} :
      tokens (Text.Source.ofString text) = .ok (before ++ literal :: rest) →
      Reading.reader.after Reading.start before (literal :: rest) =
        .ok ⟨definitions, .assigned name parameters⟩ →
      literal.kind = .string →
      Reading.step ⟨definitions, .assigned name parameters⟩ literal rest = .error e.fault →
      compileGroup text = .error e → FailsInBody text literal e
  | static {before rest : List Token} {isPublic : Bool} {definitions : Definitions}
      {group name : String} {parameters : List String} :
      tokens (Text.Source.ofString text) = .ok (before ++ literal :: rest) →
      StaticReading.reader.after StaticReading.start before (literal :: rest) =
        .ok (.inside isPublic group ⟨definitions, .assigned name parameters⟩) →
      literal.kind = .string →
      StaticReading.step (.inside isPublic group ⟨definitions, .assigned name parameters⟩) literal
        rest = .error e.fault →
      compileStatic text = .error e → FailsInBody text literal e

namespace FailsInBody

variable {text : String} {literal : Token} {e : CompileError}

theorem mem_tokens (h : FailsInBody text literal e) :
    literal ∈ (Lexing.read 0 (Text.Source.ofString text).text).tokens := by
  obtain ⟨ht, -⟩ | ⟨ht, -⟩ := h <;>
  · obtain ⟨hread, -⟩ := tokens_eq_ok_iff.1 ht
    simp [hread]

theorem kind_eq (h : FailsInBody text literal e) : literal.kind = .string := by
  obtain ⟨-, -, hk, -⟩ | ⟨-, -, hk, -⟩ := h <;> exact hk

theorem source_eq (h : FailsInBody text literal e) : e.source = Text.Source.ofString text := by
  obtain ⟨-, -, -, -, he⟩ | ⟨-, -, -, -, he⟩ := h
  · exact (compileGroup_eq_error_iff.1 he).1
  · exact (compileStatic_eq_error_iff.1 he).1

theorem exists_inBody (h : FailsInBody text literal e) :
    ∃ inBody, Body.scan literal.value.toList = .error inBody ∧
      e.fault = inBody.relocate literal.offsets := by
  obtain ⟨-, -, hk, hs, -⟩ | ⟨-, -, hk, hs, -⟩ := h
  · simp only [Reading.step, hk, Except.map_eq_error_iff, Reading.define_eq_error_iff] at hs
    exact hs
  · simp only [StaticReading.step, Reading.isFinished, hk, Reading.step] at hs
    simpa [Except.map_eq_error_iff, Reading.define_eq_error_iff] using hs

end FailsInBody

/-- **A fault in a body is the fault of the body by itself, moved.**  Where a declaration fails in
its body, the decoded body alone fails with the same message.  The offsets of the literal take the
ends of its range in the body to those of the range that is shown, which is not empty, and starts
and ends in the content of the literal, or at the start of its closing delimiter. -/
theorem body_faults_are_moved {text : String} {literal : Token} {e : CompileError}
    (h : FailsInBody text literal e) :
    ∃ alone, compileTemplate literal.value = .error alone ∧ alone.message = e.message ∧
      ∃ first last : Nat, literal.offsets[alone.fault.extent.start]? = some first ∧
        literal.offsets[alone.fault.extent.stop]? = some last ∧
        e.span = (Text.Source.ofString text).span ⟨first, last⟩ ∧ first < last ∧
        (e.span.startLine, e.span.startColumn) ≠ (e.span.endLine, e.span.endColumn) ∧
        ∃ lower close, literal.IsWritten (Text.Source.ofString text) lower close ∧
          lower ≤ first ∧ last ≤ close := by
  obtain ⟨inBody, hscan, hfault⟩ := h.exists_inBody
  obtain ⟨first, last, hfirst, hlast, hmoved, hlt, hwritten⟩ :=
    Token.exists_moved h.mem_tokens h.kind_eq hscan
  have halone : compileTemplate literal.value =
      .error ⟨inBody, Text.Source.ofString literal.value⟩ := by
    rw [compileTemplate, hscan]
  have hspan : e.span = (Text.Source.ofString text).span ⟨first, last⟩ := by
    rw [CompileError.span, h.source_eq, hfault, hmoved]
  refine ⟨_, halone, ?_, first, last, hfirst, hlast, hspan, hlt, ?_, hwritten⟩
  · rw [CompileError.message, CompileError.message, hfault, hmoved]
  · rw [hspan]
    exact Text.Source.span_ends_ne _ hlt

theorem body_faults_are_moved_behind_a_continuation :
    ∃ literal e, FailsInBody "a() ::= \"x\\\n  <b!>\"" literal e ∧ literal.value = "x<b!>" ∧
      e.span = ⟨2, 4, 2, 5⟩ ∧
      ∃ alone, compileTemplate literal.value = .error alone ∧ alone.message = e.message := by
  have htokens : tokens (.ofString "a() ::= \"x\\\n  <b!>\"") =
      .ok ([⟨.identifier, "a", ⟨0, 1⟩, []⟩, ⟨.leftParen, "(", ⟨1, 2⟩, []⟩,
        ⟨.rightParen, ")", ⟨2, 3⟩, []⟩, ⟨.pathSeparator, "::", ⟨4, 6⟩, []⟩,
        ⟨.equals, "=", ⟨6, 7⟩, []⟩] ++
        [⟨.string, "x<b!>", ⟨8, 19⟩, [9, 14, 15, 16, 17, 18]⟩]) := by cbv
  have hstep : Reading.step ⟨[], .assigned "a" []⟩
      ⟨.string, "x<b!>", ⟨8, 19⟩, [9, 14, 15, 16, 17, 18]⟩ [] =
        .error ⟨.unexpectedCharacter '!', ⟨16, 17⟩⟩ := by cbv
  have hcompile : compileGroup "a() ::= \"x\\\n  <b!>\"" =
      .error ⟨⟨.unexpectedCharacter '!', ⟨16, 17⟩⟩, .ofString "a() ::= \"x\\\n  <b!>\""⟩ := by cbv
  have hfails := @FailsInBody.group _ _ _ _ _ [] "a" [] htokens rfl rfl hstep hcompile
  obtain ⟨alone, hcompiles, hmessage, -⟩ := body_faults_are_moved hfails
  exact ⟨_, _, hfails, rfl, by cbv, alone, hcompiles, hmessage⟩

end Group

end TextTemplate
