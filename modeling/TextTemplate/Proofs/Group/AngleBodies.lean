import Mathlib
import TextTemplate.Proofs.Body.Grammar
import TextTemplate.Proofs.Group.Boundaries

/-!
# Where `<<` bodies end

A `<<` body ends at the first `>>` outside expressions.  Its reader follows the text with one bit,
which tells whether an expression is open, while the reader of bodies cuts a text at its brackets.
`Body.IsClosed` says in the terms of the latter that no expression is open at the end of a text; the
bit tells the same (`Angle.isClosed_iff`).

* `Angle.read_eq_ok_iff`: a `<<` body is read exactly up to the first `>>` behind a closed text;
* `Body.IsClosed.isFinished`: no expression of a closed body is unfinished;
* `Angle.endsBody_of_spells`: a body that can be read is read back, unless a `>>` in its literal
  text ends it before.
-/

namespace TextTemplate

/-! ### Closed bodies -/

namespace Body

/-- No expression is open at the end of the text: it is literal text without opening brackets, and
pairs of brackets without closing ones in between. -/
inductive IsClosed : List Char → Prop
  | run {run : List Char} : '<' ∉ run → IsClosed run
  | bracket {run content later : List Char} : '<' ∉ run → '>' ∉ content → IsClosed later →
      IsClosed (run ++ '<' :: (content ++ '>' :: later))

theorem Spells.isClosed {expressions : List Expression} {text : List Char}
    (h : Spells expressions text) : IsClosed text := by
  induction h with
  | run hr => exact .run hr
  | bracket hr hc _ _ _ ih => exact .bracket hr hc ih

/-- Behind an opening bracket, a closed text goes on to a closing one and is closed behind it. -/
theorem IsClosed.exists_of_append {run inner : List Char} (hr : '<' ∉ run)
    (h : IsClosed (run ++ '<' :: inner)) : ∃ content later, inner = content ++ '>' :: later ∧
      '>' ∉ content ∧ IsClosed later := by
  have hcut : Text.cutAt? '<' (run ++ '<' :: inner) = some (run, inner) :=
    Text.cutAt?_eq_some_iff.2 ⟨rfl, hr⟩
  generalize htext : run ++ '<' :: inner = text at h hcut
  cases h with
  | run hn =>
    rw [Text.cutAt?_eq_none_iff.2 hn] at hcut
    cases hcut
  | @bracket front content later hf hc hl =>
    rw [Text.cutAt?_eq_some_iff.2 ⟨rfl, hf⟩] at hcut
    cases hcut
    exact ⟨content, later, rfl, hc, hl⟩

section

variable {α : Type} {close : Nat} {items : List PlacedItem}

/-- The answer does not blame an unfinished expression. -/
def IsFinished (answer : Except Fault α) : Prop :=
  ∀ fault, answer = .error fault → fault.problem ≠ .unfinishedExpression

theorem IsFinished.map {β : Type} {answer : Except Fault α} (h : IsFinished answer)
    (f : α → β) : IsFinished (answer.map f) := fun fault hf =>
  h fault (Except.map_eq_error_iff.1 hf)

theorem isFinished_blame {problem : Problem} (h : problem ≠ .unfinishedExpression)
    (index : Nat) : IsFinished (.error (blame problem index) : Except Fault α) := by
  rintro _ ⟨⟩
  exact h

theorem isFinished_readEnd : IsFinished (readEnd items) := by
  cases items with
  | nil => rintro _ ⟨⟩
  | cons item rest => exact isFinished_blame (by simp) _

theorem isFinished_readSegments : IsFinished (readSegments close items) := by
  fun_induction readSegments close items with
  | case1 _ _ _ _ _ ih => exact ih.map _
  | case2 => exact isFinished_blame (by simp) _
  | case3 => exact isFinished_readEnd.map _

theorem isFinished_readArguments : IsFinished (readArguments close items) := by
  fun_induction readArguments close items with
  | case1 _ _ _ _ _ ih => exact ih.map _
  | case2 => exact isFinished_readEnd.map _
  | case3 | case4 | case5 => exact isFinished_blame (by simp) _

theorem isFinished_readExpression (close : Nat) (items : List PlacedItem) :
    IsFinished (readExpression close items) := by
  unfold readExpression
  split
  · exact isFinished_readEnd.map _
  · exact isFinished_readArguments.map _
  · exact isFinished_readSegments.map _
  · exact isFinished_blame (by simp) _

end

theorem IsClosed.isFinished {text : List Char} (h : IsClosed text) (index : Nat) :
    IsFinished (scanFrom index text) := by
  induction h generalizing index with
  | run hr =>
    rw [scanFrom_of_not_mem hr]
    rintro _ ⟨⟩
  | @bracket run content later hr hc _ ih =>
    rw [scanFrom_bracket hr hc]
    have he := isFinished_readExpression (index + run.length + 1 + content.length)
      (items (index + run.length + 1) content)
    cases hread : readExpression (index + run.length + 1 + content.length)
        (items (index + run.length + 1) content) with
    | error fault =>
      rw [hread] at he
      rintro _ ⟨⟩
      exact he fault rfl
    | ok e => exact (ih _).map _

end Body

namespace Group

open Body (IsClosed)

/-! ### The bit that follows the text -/

namespace Angle

/-- Whether an expression is open behind the text, if `inExpression` tells whether one is open in
front of it. -/
def openAfter (inExpression : Bool) (text : List Char) : Bool :=
  text.foldl (fun inside c => if c = '<' then true else if c = '>' then false else inside)
    inExpression

theorem openAfter_cons (inExpression : Bool) (c : Char) (text : List Char) :
    openAfter inExpression (c :: text) =
      openAfter (if c = '<' then true else if c = '>' then false else inExpression) text := rfl

theorem openAfter_append (inExpression : Bool) (text later : List Char) :
    openAfter inExpression (text ++ later) = openAfter (openAfter inExpression text) later :=
  List.foldl_append

/-- Only an opening bracket opens an expression. -/
theorem openAfter_false {run : List Char} (h : '<' ∉ run) : openAfter false run = false := by
  induction run with
  | nil => rfl
  | cons c run ih =>
    obtain ⟨hc, hrun⟩ := not_or.1 (List.mem_cons.not.1 h)
    rw [openAfter_cons, if_neg (Ne.symm hc), ite_self, ih hrun]

/-- Only a closing bracket closes it. -/
theorem openAfter_true {content : List Char} (h : '>' ∉ content) :
    openAfter true content = true := by
  induction content with
  | nil => rfl
  | cons c content ih =>
    obtain ⟨hc, hcontent⟩ := not_or.1 (List.mem_cons.not.1 h)
    rw [openAfter_cons, if_neg (Ne.symm hc), ite_self, ih hcontent]

theorem openAfter_bracket {run : List Char} (hr : '<' ∉ run) (inner : List Char) :
    openAfter false (run ++ '<' :: inner) = openAfter true inner := by
  rw [openAfter_append, openAfter_false hr]
  rfl

theorem openAfter_content {content : List Char} (hc : '>' ∉ content) (later : List Char) :
    openAfter true (content ++ '>' :: later) = openAfter false later := by
  rw [openAfter_append, openAfter_true hc]
  rfl

/-- The bit is cleared just where the text is closed. -/
theorem isClosed_iff {text : List Char} : IsClosed text ↔ openAfter false text = false := by
  constructor
  · intro h
    induction h with
    | run hr => exact openAfter_false hr
    | bracket hr hc _ ih => rw [openAfter_bracket hr, openAfter_content hc, ih]
  · intro h
    induction hn : text.length using Nat.strongRecOn generalizing text with
    | _ length ih =>
      cases ho : Text.cutAt? '<' text with
      | none => exact .run (Text.cutAt?_eq_none_iff.1 ho)
      | some cut =>
        obtain ⟨run, inner⟩ := cut
        obtain ⟨rfl, hr⟩ := Text.cutAt?_eq_some_iff.1 ho
        rw [openAfter_bracket hr] at h
        cases hi : Text.cutAt? '>' inner with
        | none =>
          rw [openAfter_true (Text.cutAt?_eq_none_iff.1 hi)] at h
          cases h
        | some cut =>
          obtain ⟨content, later⟩ := cut
          obtain ⟨rfl, hc⟩ := Text.cutAt?_eq_some_iff.1 hi
          rw [openAfter_content hc] at h
          have hshort : later.length < length := by
            rw [← hn]
            simp only [List.length_append, List.length_cons]
            omega
          exact .bracket hr hc (ih _ hshort h rfl)

end Angle

/-! ### Reading up to the first end -/

/-- The content of a literal that is not decoded. -/
def Content.verbatim (index : Nat) (body : List Char) : Content :=
  ⟨body.zipIdx index, index + body.length⟩

theorem Content.verbatim_cons (index : Nat) (c : Char) (body : List Char) :
    verbatim index (c :: body) = (verbatim (index + 1) body).cons c index := by
  simp only [verbatim, cons, List.zipIdx_cons, List.length_cons, Nat.add_assoc, Nat.add_comm 1]

@[simp] theorem Content.value_verbatim (index : Nat) (body : List Char) :
    (verbatim index body).value = body := by
  simp [verbatim, value]

namespace Angle

/-- The body stands at the front of the text, up to the first `>>` outside expressions, where
`inExpression` tells whether an expression is open in front of the text. -/
structure EndsBody (inExpression : Bool) (body text : List Char) : Prop where
  closed : openAfter inExpression body = false
  stands : body ++ ['>', '>'] <+: text
  first : ∀ front, front ++ ['>', '>'] <+: text → openAfter inExpression front = false →
    body.length ≤ front.length

variable {inExpression : Bool} {c : Char} {body rest text : List Char}

theorem endsBody_nil (h : inExpression = false) (rest : List Char) :
    EndsBody inExpression [] ('>' :: '>' :: rest) :=
  ⟨h, ⟨rest, rfl⟩, fun _ _ _ => Nat.zero_le _⟩

/-- Where the body does not end at once, its first character is read. -/
theorem endsBody_cons_iff (h : ¬(inExpression = false ∧ c = '>' ∧ rest.head? = some '>')) :
    EndsBody inExpression (c :: body) (c :: rest) ↔
      EndsBody (if c = '<' then true else if c = '>' then false else inExpression) body rest := by
  constructor
  · rintro ⟨hc, hp, hf⟩
    refine ⟨hc, (List.cons_prefix_cons.1 hp).2, fun front hp' hc' => ?_⟩
    exact Nat.succ_le_succ_iff.1 (hf (c :: front) (List.cons_prefix_cons.2 ⟨rfl, hp'⟩) hc')
  · rintro ⟨hc, hp, hf⟩
    refine ⟨hc, List.cons_prefix_cons.2 ⟨rfl, hp⟩, fun front hp' hc' => ?_⟩
    cases front with
    | nil =>
      -- the body would end at once
      obtain ⟨hgt, hrest⟩ := List.cons_prefix_cons.1 hp'
      obtain ⟨later, rfl⟩ := hrest
      exact absurd ⟨hc', hgt.symm, rfl⟩ h
    | cons d front =>
      obtain ⟨rfl, hrest⟩ := List.cons_prefix_cons.1 hp'
      exact Nat.succ_le_succ (hf front hrest hc')

theorem EndsBody.eq_nil (h : EndsBody inExpression body text) (hc : inExpression = false)
    (hp : ['>', '>'] <+: text) : body = [] :=
  List.length_eq_zero_iff.1 (Nat.le_zero.1 (h.first [] hp hc))

/-- A body is read up to its first end. -/
theorem read_eq_ok_iff (start index : Nat) {content : Content} :
    read start inExpression index text = .ok content ↔
      ∃ body, EndsBody inExpression body text ∧ content = .verbatim index body := by
  induction text generalizing inExpression index content with
  | nil =>
    constructor
    · rintro ⟨⟩
    · rintro ⟨body, h, -⟩
      simpa using List.prefix_nil.1 h.stands
  | cons c rest ih =>
    rw [read]
    split
    · next hc =>
      obtain ⟨hin, rfl, hhead⟩ := hc
      obtain ⟨rest, rfl⟩ := List.head?_eq_some_iff.1 hhead
      constructor
      · rintro ⟨⟩
        exact ⟨[], endsBody_nil hin rest, rfl⟩
      · rintro ⟨body, h, rfl⟩
        obtain rfl := h.eq_nil hin ⟨rest, rfl⟩
        rfl
    · next hc =>
      dsimp only
      rw [Except.map_eq_ok_iff]
      constructor
      · rintro ⟨content, hr, rfl⟩
        obtain ⟨body, h, rfl⟩ := (ih _).1 hr
        exact ⟨c :: body, (endsBody_cons_iff hc).2 h, (Content.verbatim_cons index c body).symm⟩
      · rintro ⟨body, h, rfl⟩
        cases body with
        | nil =>
          obtain ⟨rest', hrest⟩ := h.stands
          obtain ⟨rfl, rfl⟩ := List.cons.inj hrest
          exact absurd ⟨h.closed, rfl, rfl⟩ hc
        | cons d body =>
          obtain ⟨rfl, -⟩ := List.cons_prefix_cons.1 h.stands
          exact ⟨_, (ih _).2 ⟨body, (endsBody_cons_iff hc).1 h, rfl⟩,
            (Content.verbatim_cons index d body).symm⟩

/-- A `>>` in front of literal text that is followed by something else is in the literal text, or
begins with its last character. -/
theorem infix_or_getLast?_of_prefix {front run later : List Char}
    (h : front ++ ['>', '>'] <+: run ++ later) (hlt : front.length < run.length) :
    ['>', '>'] <:+: run ∨ run.getLast? = some '>' ∧ later.head? = some '>' := by
  obtain ⟨more, rfl⟩ : front <+: run :=
    List.prefix_of_prefix_length_le ((List.prefix_append front _).trans h)
      (List.prefix_append run later) (Nat.le_of_lt hlt)
  rw [List.append_assoc, List.prefix_append_right_inj] at h
  rcases more with _ | ⟨c, _ | ⟨d, more⟩⟩
  · simp at hlt
  · obtain ⟨rfl, hnext⟩ := List.cons_prefix_cons.1 h
    obtain ⟨rest, rfl⟩ := hnext
    exact .inr ⟨by simp, rfl⟩
  · obtain ⟨rfl, hnext⟩ := List.cons_prefix_cons.1 h
    obtain ⟨rfl, -⟩ := List.cons_prefix_cons.1 hnext
    exact .inl ⟨front, more, by simp⟩

theorem not_infix_of_literal {run : List Char} {expressions : List Expression}
    (h : ∀ s, .literal s ∈ Body.literal run ++ expressions → ¬['>', '>'] <:+: s.toList) :
    ¬['>', '>'] <:+: run := by
  cases run with
  | nil => simp
  | cons c run =>
    have hs := h (String.ofList (c :: run)) List.mem_cons_self
    rwa [String.toList_ofList] at hs

/-- Outside the expressions of a body that can be read there is no `>>` but in its literal text, or
from its end on. -/
theorem length_le_of_spells {expressions : List Expression} {later front : List Char}
    (h : Body.Spells expressions body)
    (hl : ∀ s, .literal s ∈ expressions → ¬['>', '>'] <:+: s.toList)
    (hlast : ∀ s, expressions.getLast? = some (.literal s) → s.toList.getLast? ≠ some '>')
    (hp : front ++ ['>', '>'] <+: body ++ '>' :: '>' :: later) (hc : IsClosed front) :
    body.length ≤ front.length := by
  induction h generalizing front with
  | @run run hr =>
    refine Nat.le_of_not_lt fun hlt => ?_
    have hl' : ∀ s, .literal s ∈ Body.literal run ++ [] → ¬['>', '>'] <:+: s.toList := by
      simpa using hl
    rcases infix_or_getLast?_of_prefix hp hlt with hin | ⟨hend, -⟩
    · exact not_infix_of_literal hl' hin
    · cases run with
      | nil => simp at hlt
      | cons c run =>
        have hs := hlast (String.ofList (c :: run)) rfl
        rw [String.toList_ofList] at hs
        exact hs hend
  | @bracket run content rest e expressions hr hcontent _ _ _ ih =>
    rw [List.append_assoc, List.cons_append, List.append_assoc, List.cons_append] at hp
    have hrun : ¬front.length < run.length := by
      intro hlt
      rcases infix_or_getLast?_of_prefix hp hlt with hin | ⟨-, hnext⟩
      · exact not_infix_of_literal hl hin
      · cases hnext
    -- the opening bracket is in front of the place, so its closing bracket is too
    obtain ⟨front, rfl⟩ : run <+: front :=
      List.prefix_of_prefix_length_le (List.prefix_append run _)
        ((List.prefix_append front _).trans hp) (Nat.le_of_not_lt hrun)
    rw [List.append_assoc, List.prefix_append_right_inj] at hp
    cases front with
    | nil => cases (List.cons_prefix_cons.1 hp).1
    | cons d front =>
    obtain ⟨rfl, hp⟩ := List.cons_prefix_cons.1 hp
    obtain ⟨others, hfront⟩ := hp
    obtain ⟨content', later', rfl, hcontent', hlater'⟩ := hc.exists_of_append hr
    have hinner : content' ++ '>' :: (later' ++ ['>', '>'] ++ others) =
        content ++ '>' :: (rest ++ '>' :: '>' :: later) := by
      simpa using hfront
    have hcut := Text.cutAt?_eq_some_iff.2 ⟨hinner, hcontent⟩
    rw [Text.cutAt?_eq_some_iff.2 ⟨rfl, hcontent'⟩] at hcut
    obtain ⟨rfl, hrest⟩ := Prod.mk.inj (Option.some.inj hcut)
    have hlength : rest.length ≤ later'.length := by
      refine ih (fun s hm => hl s ?_) (fun s hs => hlast s ?_) ⟨others, hrest⟩ hlater'
      · exact List.mem_append_right _ (List.mem_cons_of_mem _ hm)
      · simp [List.getLast?_append, List.getLast?_cons, hs]
    simp only [List.length_append, List.length_cons]
    omega

theorem endsBody_of_spells {expressions : List Expression} (h : Body.Spells expressions body)
    (hl : ∀ s, .literal s ∈ expressions → ¬['>', '>'] <:+: s.toList)
    (hlast : ∀ s, expressions.getLast? = some (.literal s) → s.toList.getLast? ≠ some '>')
    (later : List Char) : EndsBody false body (body ++ '>' :: '>' :: later) :=
  ⟨isClosed_iff.1 h.isClosed, ⟨later, by simp⟩, fun _ hp hc =>
    length_le_of_spells h hl hlast hp (isClosed_iff.2 hc)⟩

end Angle

/-- **A `<<` body ends outside expressions.**  Where a `<<` body is read, it ends at the first `>>`
in front of which no expression is open, so no expression of it is unfinished when it is read in
turn.  And a body that can be read is read back from between `<<` and `>>`, whatever follows, if its
literal text holds no `>>` and does not end with `>` where the body ends. -/
theorem angle_bodies_end_outside_expressions (index : Nat) :
    (∀ text token, Token.read index '<' ('<' :: text) = .ok token →
      ∃ body later, text = body ++ '>' :: '>' :: later ∧ token.value = String.ofList body ∧
        token.extent = ⟨index, index + body.length + 4⟩ ∧ IsClosed body ∧
        (∀ front others, text = front ++ '>' :: '>' :: others → IsClosed front →
          body.length ≤ front.length) ∧
        ∀ fault, Body.scan token.value.toList = .error fault →
          fault.problem ≠ .unfinishedExpression) ∧
    ∀ body expressions later, Body.scan body = .ok expressions →
      (∀ s, .literal s ∈ expressions → ¬['>', '>'] <:+: s.toList) →
      (∀ s, expressions.getLast? = some (.literal s) → s.toList.getLast? ≠ some '>') →
      ∃ token, Token.read index '<' ('<' :: (body ++ '>' :: '>' :: later)) = .ok token ∧
        token.kind = .string ∧ token.value = String.ofList body ∧
        token.extent = ⟨index, index + body.length + 4⟩ := by
  constructor
  · intro text token h
    rw [Token.read_angle] at h
    obtain ⟨content, hr, rfl⟩ := Except.map_eq_ok_iff.1 h
    obtain ⟨body, hbody, rfl⟩ := (Angle.read_eq_ok_iff _ _).1 hr
    have hclosed := Angle.isClosed_iff.2 hbody.closed
    obtain ⟨later, hlater⟩ := hbody.stands
    have hvalue : (Token.ofContent index 2 (.verbatim (index + 2) body)).value =
        String.ofList body := by
      rw [Token.ofContent, Content.value_verbatim]
    refine ⟨body, later, by simp [← hlater], hvalue, ?_, hclosed, ?_, ?_⟩
    · simp only [Token.ofContent, Content.verbatim]
      congr 1
      omega
    · rintro front others rfl hfront
      exact hbody.first front ⟨others, by simp⟩ (Angle.isClosed_iff.1 hfront)
    · rw [hvalue, String.toList_ofList]
      exact hclosed.isFinished 0
  · intro body expressions later h hl hlast
    have hbody := Angle.endsBody_of_spells (Body.scanFrom_eq_ok_iff_spells.1 h) hl hlast later
    refine ⟨Token.ofContent index 2 (.verbatim (index + 2) body), ?_, rfl, ?_, ?_⟩
    · rw [Token.read_angle, (Angle.read_eq_ok_iff _ _).2 ⟨body, hbody, rfl⟩]
      rfl
    · rw [Token.ofContent, Content.value_verbatim]
    · simp only [Token.ofContent, Content.verbatim]
      congr 1
      omega

theorem angle_bodies_end_outside_expressions_of_closing_brackets :
    ∃ token, Token.read 3 '<' "<a><b>>>;".toList = .ok token ∧ token.value = "a><b>" ∧
      token.extent = ⟨3, 12⟩ ∧ ∀ fault, Body.scan token.value.toList = .error fault →
        fault.problem ≠ .unfinishedExpression := by
  have hscan : Body.scan "a><b>".toList = .ok [.literal "a>", .attribute "b"] := by cbv
  have hinfix : ∀ s, .literal s ∈ [Expression.literal "a>", .attribute "b"] →
      ¬['>', '>'] <:+: s.toList := by
    intro s hs
    obtain rfl : s = "a>" := by simpa using hs
    decide
  obtain ⟨token, hread, -, hvalue, hextent⟩ :=
    (angle_bodies_end_outside_expressions 3).2 _ _ [';'] hscan hinfix (by simp)
  obtain ⟨_, _, _, _, _, _, _, hfinished⟩ :=
    (angle_bodies_end_outside_expressions 3).1 _ token hread
  exact ⟨token, hread, hvalue, hextent, hfinished⟩

end Group

end TextTemplate
