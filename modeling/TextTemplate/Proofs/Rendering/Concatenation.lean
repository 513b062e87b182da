import Mathlib
import TextTemplate.Template
import TextTemplate.Proofs.Body.Grammar

/-!
# Concatenation of templates

A body that can be read is over outside any expression, so what is written behind it is read as if
it stood alone, a fault included.  Only where the first body ends in literal text and the second one
begins with literal text do the two become one literal (`Body.meet`).  This does not show: the
bodies put together render as the first one followed by the second one
(`Rendering.expressions_meet`).  So concatenating the texts of templates concatenates what they
render (`compileTemplate_append`).
-/

namespace TextTemplate

namespace Body

/-- The expressions of two bodies put together: literals that meet become one. -/
def meet : List Expression → List Expression → List Expression
  | [], later => later
  | [.literal s], .literal t :: later => .literal (s ++ t) :: later
  | e :: rest, later => e :: meet rest later

variable {index close : Nat} {text run : List Char} {e : Expression}
  {front rest later expressions : List Expression} {items : List PlacedItem}

/-! ### Where literals meet -/

theorem meet_of_ne_literal (h : ∀ s, e ≠ .literal s) :
    meet (e :: rest) later = e :: meet rest later := by
  cases e with
  | literal s => exact absurd rfl (h s)
  | _ => cases rest <;> rfl

/-- A literal in front of an expression meets nothing. -/
theorem meet_literal_append (run : List Char) (h : ∀ s, e ≠ .literal s) :
    meet (literal run ++ e :: rest) later = literal run ++ e :: meet rest later := by
  cases run with
  | nil => exact meet_of_ne_literal h
  | cons c run => exact congrArg (List.cons _) (meet_of_ne_literal h)

/-- Two literals become one, unless a third one follows. -/
theorem meet_literal_literal (first second : List Char)
    (h : ∀ s later, rest ≠ .literal s :: later) :
    meet (literal first) (literal second ++ rest) = literal (first ++ second) ++ rest := by
  cases first with
  | nil => rfl
  | cons c first =>
    cases second with
    | nil =>
      rw [List.append_nil]
      cases rest with
      | nil => rfl
      | cons e later =>
        cases e with
        | literal s => exact absurd rfl (h s later)
        | _ => rfl
    | cons d second =>
      have hjoin : String.ofList (c :: first ++ d :: second) =
          String.ofList (c :: first) ++ String.ofList (d :: second) := String.ofList_append
      exact congrArg (fun s => Expression.literal s :: rest) hjoin.symm

/-! ### Reading bodies that are put together -/

/-- What stands in brackets is no literal. -/
theorem ne_literal_of_readExpression (h : readExpression close items = .ok e) (s : String) :
    e ≠ .literal s := by
  unfold readExpression at h
  split at h
  · obtain ⟨_, -, rfl⟩ := Except.map_eq_ok_iff.1 h
    simp
  · obtain ⟨_, -, rfl⟩ := Except.map_eq_ok_iff.1 h
    simp
  · obtain ⟨segments, -, rfl⟩ := Except.map_eq_ok_iff.1 h
    split <;> simp
  · cases h

theorem cutAt?_append_of_not_mem {mark : Char} {text : List Char} (h : mark ∉ text)
    (rest : List Char) : Text.cutAt? mark (text ++ rest) =
      (Text.cutAt? mark rest).map fun (before, after) => (text ++ before, after) := by
  cases hr : Text.cutAt? mark rest with
  | none =>
    have hn := Text.cutAt?_eq_none_iff.1 hr
    exact Text.cutAt?_eq_none_iff.2 (by simp [h, hn])
  | some cut =>
    obtain ⟨before, after⟩ := cut
    obtain ⟨rfl, hn⟩ := Text.cutAt?_eq_some_iff.1 hr
    exact Text.cutAt?_eq_some_iff.2 ⟨by simp, by simp [h, hn]⟩

/-- Literal text in front of a body goes in front of its first literal. -/
theorem scanFrom_literal_append (hr : '<' ∉ run) (text : List Char) :
    scanFrom index (run ++ text) =
      (scanFrom (index + run.length) text).map (meet (literal run)) := by
  rw [scanFrom_eq, scanFrom_eq (index + run.length), cutAt?_append_of_not_mem hr]
  cases Text.cutAt? '<' text with
  | none =>
    have hm : meet (literal run) (literal text ++ []) = literal (run ++ text) ++ [] :=
      meet_literal_literal run text (by simp)
    rw [List.append_nil, List.append_nil] at hm
    exact congrArg Except.ok hm.symm
  | some cut =>
    obtain ⟨before, inner⟩ := cut
    simp only [Option.map_some, List.length_append, ← Nat.add_assoc]
    cases Text.cutAt? '>' inner with
    | none => rfl
    | some cut =>
      obtain ⟨content, later⟩ := cut
      dsimp only
      cases he : readExpression (index + run.length + before.length + 1 + content.length)
          (Body.items (index + run.length + before.length + 1) content) with
      | error fault => rfl
      | ok expression =>
        dsimp only
        cases scanFrom (index + run.length + before.length + 1 + content.length + 1) later with
        | error fault => rfl
        | ok expressions =>
          have hm : meet (literal run) (literal before ++ expression :: expressions) =
              literal (run ++ before) ++ expression :: expressions :=
            meet_literal_literal run before fun s later hl =>
              ne_literal_of_readExpression he s (List.cons.inj hl).1
          exact congrArg Except.ok hm.symm

/-- What is read behind an expression comes after it. -/
theorem scanFrom_expression_append {content : List Char} (hr : '<' ∉ run) (hc : '>' ∉ content)
    (he : readExpression (index + run.length + 1 + content.length)
      (Body.items (index + run.length + 1) content) = .ok e) (text : List Char) :
    scanFrom index (run ++ '<' :: (content ++ '>' :: text)) =
      (scanFrom (index + run.length + 1 + content.length + 1) text).map fun expressions =>
        literal run ++ e :: expressions := by
  rw [scanFrom_bracket hr hc, he]

/-- **A body is read on behind any body that can be read.** -/
theorem scanFrom_append (h : scanFrom index text = .ok front) (other : List Char) :
    scanFrom index (text ++ other) =
      (scanFrom (index + text.length) other).map (meet front) := by
  induction hn : text.length using Nat.strongRecOn generalizing index text front with
  | _ length ih =>
    rw [← hn]
    rcases cases_of_scanFrom h with ⟨hr, rfl⟩ |
      ⟨run, content, later, e, expressions, rfl, hr, hc, he, hl, rfl⟩
    · exact scanFrom_literal_append hr other
    · have hshort : later.length < length := by
        simp only [List.length_append, List.length_cons] at hn
        omega
      have hend : index + (run ++ '<' :: (content ++ '>' :: later)).length =
          index + run.length + 1 + content.length + 1 + later.length := by
        simp only [List.length_append, List.length_cons]
        omega
      simp only [List.append_assoc, List.cons_append]
      rw [scanFrom_expression_append hr hc he, ih later.length hshort hl rfl, hend]
      cases scanFrom (index + run.length + 1 + content.length + 1 + later.length) other with
      | error fault => rfl
      | ok rest =>
        have hm : meet (literal run ++ e :: expressions) rest =
            literal run ++ e :: meet expressions rest :=
          meet_literal_append run (ne_literal_of_readExpression he)
        exact congrArg Except.ok hm.symm

theorem scan_append (h : scan text = .ok front) (second : List Char) :
    scan (text ++ second) =
      ((scan second).mapError (Fault.shift text.length)).map (meet front) := by
  have hs := scanFrom_shift text.length 0 second
  rw [Nat.add_comm] at hs
  rw [scan, scanFrom_append h, hs]
  rfl

end Body

/-! ### Rendering bodies that are put together -/

namespace Rendering

/-- The bodies put together render as one after the other. -/
theorem expressions_meet (embed : String → Outcome) (attributes : Attributes)
    (front later : List Expression) : expressions embed attributes (Body.meet front later) =
      (expressions embed attributes front).followedBy fun _ =>
        expressions embed attributes later := by
  fun_induction Body.meet front later with
  | case1 later => rw [expressions, Outcome.text_empty_followedBy]
  | case2 s t later =>
    -- one literal shows what the two of them show one after the other
    have hjoin : expression embed attributes (.literal (s ++ t)) =
        (Outcome.text s).followedBy fun _ => Outcome.text t := rfl
    rw [expressions, hjoin, Outcome.followedBy_assoc, expressions, Outcome.followedBy_assoc]
    simp only [expressions, Outcome.text_empty_followedBy]
    rfl
  | case3 e rest later _ ih =>
    rw [expressions, expressions, ih, Outcome.followedBy_assoc]

end Rendering

/-! ### Concatenated templates -/

theorem compileTemplate_eq_ok_iff {text : String} {definition : Definition} :
    compileTemplate text = .ok definition ↔ ∃ expressions,
      Body.scan text.toList = .ok expressions ∧ definition = ⟨text, expressions, none⟩ := by
  unfold compileTemplate
  cases Body.scan text.toList <;> simp [eq_comm]

/-- Behind a template that compiles, another one is compiled as it is on its own. -/
theorem compileTemplate_append {first : String} {a : Definition}
    (h : compileTemplate first = .ok a) (second : String) :
    (∀ b, compileTemplate second = .ok b → compileTemplate (first ++ second) =
      .ok ⟨first ++ second, Body.meet a.expressions b.expressions, none⟩) ∧
    ∀ e, compileTemplate second = .error e → ∃ e', compileTemplate (first ++ second) = .error e' ∧
      e'.message = e.message := by
  obtain ⟨front, hf, rfl⟩ := compileTemplate_eq_ok_iff.1 h
  have happ := Body.scan_append hf second.toList
  rw [← String.toList_append] at happ
  constructor
  · intro b hb
    obtain ⟨later, hl, rfl⟩ := compileTemplate_eq_ok_iff.1 hb
    rw [hl] at happ
    exact compileTemplate_eq_ok_iff.2 ⟨_, happ, rfl⟩
  · intro e he
    unfold compileTemplate at he ⊢
    cases hs : Body.scan second.toList with
    | ok later =>
      rw [hs] at he
      cases he
    | error fault =>
      rw [hs] at he happ
      obtain rfl : _ = e := Except.error.inj he
      rw [happ]
      exact ⟨_, rfl, rfl⟩

/-- **Concatenated templates render in turn.**  Behind a text that compiles, a text compiles exactly
when it does on its own, and fails with the same message otherwise.  The two together have a text
exactly when both have one, and then show the two texts, and note what the two note, one after the
other. -/
theorem concatenated_templates_render_in_turn {first second : String} {a : Definition}
    (h : compileTemplate first = .ok a) :
    (∀ b, compileTemplate second = .ok b → ∃ both, compileTemplate (first ++ second) = .ok both ∧
      ∀ (group : Group) (attributes : Attributes) (settings : Settings),
        let rendered (definition : Definition) : Outcome :=
          Template.render ⟨definition, group, attributes⟩ settings
        ((∃ text, (rendered both).result = .ok text) ↔
          (∃ s, (rendered a).result = .ok s) ∧ ∃ t, (rendered b).result = .ok t) ∧
        ∀ s t, (rendered a).result = .ok s → (rendered b).result = .ok t →
          (rendered both).result = .ok (s ++ t) ∧
          (rendered both).log settings =
            (rendered a).log settings ++ (rendered b).log settings) ∧
    ∀ e, compileTemplate second = .error e → ∃ e', compileTemplate (first ++ second) = .error e' ∧
      e'.message = e.message := by
  obtain ⟨hok, herror⟩ := compileTemplate_append h second
  refine ⟨fun b hb => ⟨_, hok b hb, ?_⟩, herror⟩
  intro group attributes settings rendered
  have hboth : rendered ⟨first ++ second, Body.meet a.expressions b.expressions, none⟩ =
      (rendered a).followedBy fun _ => rendered b :=
    Rendering.expressions_meet _ attributes a.expressions b.expressions
  rw [hboth]
  constructor
  · constructor
    · rintro ⟨text, ht⟩
      obtain ⟨m, s, n, t, ha, hb, -, -⟩ :=
        Outcome.followedBy_eq_text_iff.1 (Outcome.eq_of_result ht)
      exact ⟨⟨s, by rw [ha]⟩, t, by rw [hb]⟩
    · rintro ⟨⟨s, hs⟩, t, ht⟩
      exact ⟨s ++ t, by rw [Outcome.followedBy_of_ok hs, ht]; rfl⟩
  · intro s t hs ht
    rw [Outcome.followedBy_of_ok hs, ht]
    exact ⟨rfl, List.map_append⟩

/-- The literals `b` and `c` meet between the two texts, and the second one includes a template that
is missing; a text that ends inside an expression fails behind the first one as it does alone. -/
theorem concatenated_templates_render_in_turn_of_meeting_literals :
    let group : Group := ⟨[("t", ⟨"!", [.literal "!"], none⟩)]⟩
    let attributes := (∅ : Attributes).insert "x" (.int 1)
    let a : Definition := ⟨"<x>b", [.attribute "x", .literal "b"], none⟩
    let b : Definition :=
      ⟨"c<t()><u()>", [.literal "c", .inclusion "t" [], .inclusion "u" []], none⟩
    compileTemplate "<x>b" = .ok a ∧ compileTemplate "c<t()><u()>" = .ok b ∧
      (∃ both, compileTemplate "<x>bc<t()><u()>" = .ok both ∧
        (Template.render ⟨both, group, attributes⟩ {}).result = .ok "1bc!" ∧
        (Template.render ⟨both, group, attributes⟩ {}).log {} = [(.debug, Outcome.note "u")]) ∧
      ∃ e, compileTemplate "<x>b<x" = .error e ∧ e.message = "unfinished template expression" := by
  intro group attributes a b
  have ha : compileTemplate "<x>b" = .ok a := by cbv
  have hb : compileTemplate "c<t()><u()>" = .ok b := by cbv
  obtain ⟨both, hc, hr⟩ := (concatenated_templates_render_in_turn ha).1 b hb
  obtain ⟨ht, hl⟩ := (hr group attributes {}).2 "1b" "c!" rfl rfl
  have he : compileTemplate "<x" = .error
      ⟨⟨.unfinishedExpression, ⟨0, 2⟩⟩, Text.Source.ofString "<x"⟩ := by cbv
  exact ⟨ha, hb, ⟨both, hc, ht, hl⟩, (concatenated_templates_render_in_turn ha).2 _ he⟩

end TextTemplate
