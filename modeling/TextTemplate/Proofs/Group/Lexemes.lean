import TextTemplate.Group.Lexeme
import TextTemplate.Proofs.Except

/-!
# Spelling tokens

The inverse of reading tokens.  A `Lexeme` is a token before it is spelt: a word, a mark of one
character, `::`, or a literal with its body.

* `Form` says how a literal is delimited, and `Form.Fits` that its body does not end it early;
* `IsTrivia` holds of blanks (`isTrivia_of_isBlank`) and comments, which may stand before, between
  and after lexemes;
* `Spells` relates a list of lexemes to the texts that spell it, and `spell` makes such texts;
* `Spells.exists_tokens`: reading them gives tokens of the same kinds and values.
-/

namespace TextTemplate

namespace Group

/-! ### Blanks and comments -/

/-- The text consists of blanks and of comments, each with the end of its line. -/
inductive IsTrivia : List Char → Prop
  | nil : IsTrivia []
  | blank {c : Char} {rest : List Char} :
      Text.isBlank c = true → IsTrivia rest → IsTrivia (c :: rest)
  | comment {line rest : List Char} :
      '\n' ∉ line → IsTrivia rest → IsTrivia ('/' :: '/' :: (line ++ '\n' :: rest))

theorem isTrivia_of_isBlank {gap : List Char} (h : ∀ c ∈ gap, Text.isBlank c = true) :
    IsTrivia gap := by
  induction gap with
  | nil => exact .nil
  | cons c gap ih =>
    obtain ⟨hc, hgap⟩ := List.forall_mem_cons.1 h
    exact .blank hc (ih hgap)

theorem triviaLength_comment {line : List Char} (h : '\n' ∉ line) (rest : List Char) :
    triviaLength true (line ++ '\n' :: rest) = line.length + 1 + triviaLength false rest := by
  induction line with
  | nil => simp [triviaLength]
  | cons c line ih =>
    have hc : (c != '\n') = true := by
      have : c ≠ '\n' := fun hc => h (hc ▸ List.mem_cons_self)
      simpa using this
    have hline : '\n' ∉ line := fun hm => h (List.mem_cons_of_mem c hm)
    rw [List.cons_append, triviaLength, if_pos rfl, hc, ih hline, List.length_cons]
    omega

/-- All of it is skipped, with the blanks and comments that follow. -/
theorem triviaLength_append {gap : List Char} (h : IsTrivia gap) (rest : List Char) :
    triviaLength false (gap ++ rest) = gap.length + triviaLength false rest := by
  induction h with
  | nil => simp
  | blank hc _ ih =>
    rw [List.cons_append, triviaLength, if_neg Bool.false_ne_true, if_pos hc, ih,
      List.length_cons]
    omega
  | @comment line gap hline _ ih =>
    have hb : Text.isBlank '/' = false := by decide
    have hn : ('/' != '\n') = true := by decide
    simp only [List.cons_append, List.append_assoc]
    rw [triviaLength, if_neg Bool.false_ne_true, hb, if_neg Bool.false_ne_true,
      if_pos ⟨rfl, rfl⟩, triviaLength, if_pos rfl, hn, triviaLength_comment hline, ih]
    simp only [List.length_cons, List.length_append]
    omega

/-! ### The end of a word -/

/-- What follows a word: nothing that continues it, or makes it the front of a raw literal. -/
def EndsWord (rest : List Char) : Prop :=
  ∀ c, rest.head? = some c → Text.isIdentifierPart c = false ∧ c ≠ '#' ∧ c ≠ '"'

theorem isIdentifierPart_iff {c : Char} : Text.isIdentifierPart c = true ↔
    65 ≤ c.toNat ∧ c.toNat ≤ 90 ∨ 97 ≤ c.toNat ∧ c.toNat ≤ 122 ∨
      48 ≤ c.toNat ∧ c.toNat ≤ 57 ∨ c.toNat = 95 := by
  have hdef : Text.isIdentifierPart c = (decide (c.val ≥ 65 ∧ c.val ≤ 90) ||
      (decide (c.val ≥ 97) && decide (c.val ≤ 122)) ||
      (decide (c.val ≥ 48) && decide (c.val ≤ 57)) || c == '_') := rfl
  have hline : c = '_' ↔ c.toNat = 95 := Char.toNat_inj.symm
  rw [hdef]
  simp only [Bool.or_eq_true, Bool.and_eq_true, decide_eq_true_eq, beq_iff_eq, hline, ge_iff_le,
    UInt32.le_iff_toNat_le, UInt32.reduceToNat, or_assoc]
  exact Iff.rfl

theorem isIdentifierPart_eq_false_of_isBlank {c : Char} (h : Text.isBlank c = true) :
    Text.isIdentifierPart c = false := by
  have hr : ∀ r ∈ Text.blankRanges, ¬(48 ≤ r.2 ∧ r.1 ≤ 57) ∧ ¬(65 ≤ r.2 ∧ r.1 ≤ 90) ∧
      ¬(95 ≤ r.2 ∧ r.1 ≤ 95) ∧ ¬(97 ≤ r.2 ∧ r.1 ≤ 122) := by
    decide
  obtain ⟨r, hm, hc⟩ := List.any_eq_true.1 h
  have := hr r hm
  simp only [Bool.and_eq_true, decide_eq_true_eq] at hc
  rw [Bool.eq_false_iff, ne_eq, isIdentifierPart_iff]
  omega

theorem EndsWord.append {gap rest : List Char} (hg : IsTrivia gap) (h : EndsWord rest) :
    EndsWord (gap ++ rest) := by
  cases hg with
  | nil => exact h
  | @blank c _ hc _ =>
    have hne : ∀ e, Text.isBlank e = false → c ≠ e := by
      rintro e he rfl
      exact Bool.false_ne_true (he.symm.trans hc)
    intro d hd
    obtain rfl : c = d := Option.some.inj hd
    exact ⟨isIdentifierPart_eq_false_of_isBlank hc, hne '#' (by decide), hne '"' (by decide)⟩
  | comment _ _ =>
    intro d hd
    obtain rfl : '/' = d := Option.some.inj hd
    decide

theorem takeWhile_eq_of_endsWord {name rest : List Char}
    (hn : ∀ c ∈ name, Text.isIdentifierPart c = true) (h : EndsWord rest) :
    (name ++ rest).takeWhile Text.isIdentifierPart = name := by
  rw [List.takeWhile_append_of_pos hn]
  cases rest with
  | nil => simp
  | cons c rest => simp [(h c rfl).1]

/-! ### Literals -/

/-- How a literal is delimited. -/
inductive Form where
  /-- By quotes, with a backslash before each quote and each backslash of the body. -/
  | quoted
  /-- By `r`, number signs and a quote in front, and a quote and as many number signs behind. -/
  | raw (hashes : Nat)
deriving DecidableEq, Repr

/-- A body with a backslash before each quote and each backslash. -/
def Quoted.escape : List Char → List Char
  | [] => []
  | c :: rest => if c = '"' ∨ c = '\\' then '\\' :: c :: escape rest else c :: escape rest

/-- The delimiter that ends a raw literal. -/
def Raw.terminator (hashes : Nat) : List Char := '"' :: List.replicate hashes '#'

namespace Form

/-- The literal of a body. -/
def spell (body : List Char) : Form → List Char
  | quoted => '"' :: Quoted.escape body ++ ['"']
  | raw hashes => 'r' :: List.replicate hashes '#' ++ '"' :: body ++ Raw.terminator hashes

/-- The body does not end the literal early. -/
def Fits (body : List Char) : Form → Prop
  | quoted => True
  | raw hashes => ¬Raw.terminator hashes <:+: body

instance (body : List Char) (form : Form) : Decidable (form.Fits body) :=
  match form with
  | quoted => inferInstanceAs (Decidable True)
  | raw hashes => inferInstanceAs (Decidable ¬Raw.terminator hashes <:+: body)

/-- Number signs can be had in plenty: one for each character of the body is enough. -/
theorem fits_raw_length (body : List Char) : Fits body (raw body.length) := by
  intro h
  have := h.length_le
  simp only [Raw.terminator, List.length_cons, List.length_replicate] at this
  omega

end Form

/-- Reading an escaped body gives the body back, and ends at the quote that closes it. -/
theorem Quoted.read_escape (start index : Nat) (body rest : List Char) :
    ∃ content, Quoted.read start index (escape body ++ '"' :: rest) = .ok content ∧
      content.value = body ∧ content.close = index + (escape body).length := by
  induction body generalizing index with
  | nil => exact ⟨⟨[], index⟩, by simp [escape, Quoted.read], rfl, rfl⟩
  | cons c body ih =>
    by_cases hc : c = '"' ∨ c = '\\'
    · obtain ⟨content, hr, hv, hl⟩ := ih (index + 2)
      have hs : readSpelling '\\' (c :: (escape body ++ '"' :: rest)) = .ok (.character c 2) := by
        rcases hc with rfl | rfl <;> rfl
      refine ⟨content.cons c index, ?_, ?_, ?_⟩
      · rw [escape, if_pos hc, List.cons_append, List.cons_append, Quoted.read,
          if_neg (by decide), hs]
        simp [hr, Except.map]
      · simpa [Content.value, Content.cons] using hv
      · rw [escape, if_pos hc]
        simp only [Content.cons, List.length_cons]
        omega
    · obtain ⟨content, hr, hv, hl⟩ := ih (index + 1)
      obtain ⟨hq, hb⟩ := not_or.1 hc
      have hs : readSpelling c (escape body ++ '"' :: rest) = .ok (.character c 1) := if_neg hb
      refine ⟨content.cons c index, ?_, ?_, ?_⟩
      · rw [escape, if_neg hc, List.cons_append, Quoted.read, if_neg hq, hs]
        simp [hr, Except.map]
      · simpa [Content.value, Content.cons] using hv
      · rw [escape, if_neg hc]
        simp only [Content.cons, List.length_cons]
        omega

/-- The terminator does not straddle the end of a body: where it asks for a number sign, there
would be the quote that closes the literal. -/
theorem Raw.take_ne_of_fits {hashes : Nat} {body rest : List Char}
    (h : Form.Fits ('"' :: body) (.raw hashes)) :
    (body ++ Raw.terminator hashes ++ rest).take hashes ≠ List.replicate hashes '#' := by
  intro ht
  by_cases hl : hashes ≤ body.length
  · -- the number signs are in the body, and make up the terminator with the quote before them
    refine h ⟨[], body.drop hashes, ?_⟩
    rw [List.append_assoc, List.take_append_of_le_length hl] at ht
    rw [Raw.terminator, ← ht]
    simp
  · -- one of them stands at the end of the body, where the closing quote is
    have hq := congrArg (·[body.length]?) ht
    rw [List.append_assoc] at hq
    simp [Raw.terminator, Nat.lt_of_not_le hl] at hq

/-- Reading a raw body gives the body back, and ends at the first terminator. -/
theorem Raw.read_terminator {hashes : Nat} (start index : Nat) {body : List Char}
    (rest : List Char) (h : Form.Fits body (.raw hashes)) :
    ∃ content, Raw.read hashes start index (body ++ Raw.terminator hashes ++ rest) = .ok content ∧
      content.value = body ∧ content.close = index + body.length := by
  induction body generalizing index with
  | nil =>
    refine ⟨⟨[], index⟩, ?_, rfl, rfl⟩
    simp [Raw.terminator, Raw.read]
  | cons c body ih =>
    have hb : Form.Fits body (.raw hashes) := fun hi => h (List.infix_cons hi)
    obtain ⟨content, hr, hv, hl⟩ := ih (index + 1) hb
    have hc : ¬(c = '"' ∧ (body ++ Raw.terminator hashes ++ rest).take hashes =
        List.replicate hashes '#') := by
      rintro ⟨rfl, ht⟩
      exact Raw.take_ne_of_fits h ht
    refine ⟨content.cons c index, ?_, ?_, ?_⟩
    · rw [List.cons_append, List.cons_append, Raw.read, if_neg hc, hr]
      rfl
    · simpa [Content.value, Content.cons] using hv
    · simp only [Content.cons, List.length_cons]
      omega

/-! ### Lexemes -/

/-- The kind and the value of a token, which is all that matters to its meaning. -/
def Token.kindAndValue (token : Token) : Token.Kind × String := (token.kind, token.value)

/-- A token before it is spelt. -/
inductive Lexeme where
  | word (name : String)
  | mark (c : Char)
  /-- The token `::`. -/
  | separator
  | literal (form : Form) (body : String)

/-- The characters that are tokens of their own. -/
def marks : List Char := ['(', ')', '{', '}', ',', ';', '=']

theorem forall_mem_marks {P : Char → Prop} : (∀ c ∈ marks, P c) ↔
    P '(' ∧ P ')' ∧ P '{' ∧ P '}' ∧ P ',' ∧ P ';' ∧ P '=' := by
  simp [marks]

namespace Lexeme

/-- The characters of a lexeme. -/
def spelling : Lexeme → List Char
  | word name => name.toList
  | mark c => [c]
  | separator => [':', ':']
  | literal form body => form.spell body.toList

/-- The kind and the value of the token that a lexeme stands for. -/
def kindAndValue : Lexeme → Token.Kind × String
  | word name => (.identifier, name)
  | mark c => (Token.Kind.ofCharacter c, String.singleton c)
  | separator => (.pathSeparator, "::")
  | literal _ body => (.string, body)

/-- Words are identifiers, marks are known, and bodies do not end their literals early. -/
def Spellable : Lexeme → Prop
  | word name => Text.isIdentifier name.toList = true
  | mark c => c ∈ marks
  | separator => True
  | literal form body => form.Fits body.toList

/-- The lexeme ends where the rest of the text begins. -/
def EndsBefore (rest : List Char) : Lexeme → Prop
  | word _ => EndsWord rest
  | _ => True

end Lexeme

theorem Raw.opening?_replicate (hashes : Nat) (rest : List Char) :
    opening? ('r' :: (List.replicate hashes '#' ++ '"' :: rest)) = some hashes := by
  have ht : (List.replicate hashes '#' ++ '"' :: rest).takeWhile (· == '#') =
      List.replicate hashes '#' := by
    rw [List.takeWhile_append_of_pos (by simp)]
    simp
  simp [opening?, ht]

theorem Raw.opening?_eq_none {c : Char} {rest : List Char} (h : rest.head? ≠ some '#')
    (hq : rest.head? ≠ some '"') : opening? (c :: rest) = none := by
  unfold opening?
  split
  · next hs =>
    obtain ⟨-, rfl⟩ := List.cons.inj hs
    cases rest with
    | nil => simp
    | cons d rest => simp_all
  · rfl

/-! ### Reading a lexeme -/

namespace Token

theorem read_word {c : Char} {name rest : List Char} (index : Nat)
    (hn : Text.isIdentifier (c :: name) = true) (he : EndsWord rest) :
    read index c (name ++ rest) = .ok (verbatim .identifier index (c :: name)) := by
  obtain ⟨hc, hall⟩ := Bool.and_eq_true_iff.1 hn
  have hparts : ∀ d ∈ name, Text.isIdentifierPart d = true := List.all_eq_true.1 hall
  have hd : ∀ d, (name ++ rest).head? = some d → d ≠ '#' ∧ d ≠ '"' := by
    intro d hd
    cases name with
    | nil => exact (he d hd).2
    | cons a name =>
      obtain rfl : a = d := Option.some.inj hd
      have ha := hparts a List.mem_cons_self
      constructor <;> rintro rfl <;> exact absurd ha (by decide)
  have ho : Raw.opening? (c :: (name ++ rest)) = none :=
    Raw.opening?_eq_none (fun h => (hd _ h).1 rfl) (fun h => (hd _ h).2 rfl)
  rw [read, ho]
  dsimp only
  rw [if_pos hc, takeWhile_eq_of_endsWord hparts he]

theorem read_mark {c : Char} (index : Nat) (rest : List Char) (h : c ∈ marks) :
    read index c rest = .ok (verbatim (Kind.ofCharacter c) index [c]) := by
  have hm : ∀ c ∈ marks, read index c rest = .ok (verbatim (Kind.ofCharacter c) index [c]) :=
    forall_mem_marks.2 ⟨rfl, rfl, rfl, rfl, rfl, rfl, rfl⟩
  exact hm c h

theorem read_quote (index : Nat) (text : List Char) :
    read index '"' text = (Quoted.read index (index + 1) text).map (ofContent index 1) := by
  have ho : Raw.opening? ('"' :: text) = none := rfl
  rw [read, ho]
  dsimp only
  rw [if_neg (by decide), if_pos rfl]

theorem read_hashes (index hashes : Nat) (text : List Char) :
    read index 'r' (List.replicate hashes '#' ++ '"' :: text) =
      (Raw.read hashes index (index + hashes + 2) text).map (ofContent index (hashes + 1)) := by
  have hdrop : (List.replicate hashes '#' ++ '"' :: text).drop (hashes + 1) = text := by
    simp [List.drop_append]
  rw [read, Raw.opening?_replicate]
  dsimp only
  rw [hdrop]

theorem read_angle (index : Nat) (text : List Char) :
    read index '<' ('<' :: text) =
      (Angle.read index false (index + 2) text).map (ofContent index 2) := by
  have ho : Raw.opening? ('<' :: '<' :: text) = none := rfl
  rw [read, ho]
  dsimp only
  rw [if_neg (by decide), if_neg (by decide), if_pos ⟨rfl, rfl⟩]
  rfl

theorem read_quoted (index : Nat) (body rest : List Char) :
    ∃ token, read index '"' (Quoted.escape body ++ '"' :: rest) = .ok token ∧
      token.kindAndValue = (.string, String.ofList body) ∧
      token.extent = ⟨index, index + (Form.quoted.spell body).length⟩ := by
  obtain ⟨content, hr, hv, hc⟩ := Quoted.read_escape index (index + 1) body rest
  refine ⟨ofContent index 1 content, ?_, ?_, ?_⟩
  · rw [read_quote, hr]
    rfl
  · rw [kindAndValue, ofContent, hv]
  · simp only [ofContent, hc, Form.spell, List.length_append, List.length_cons, List.length_nil]
    congr 1
    omega

theorem read_raw {hashes : Nat} {body : List Char} (index : Nat) (rest : List Char)
    (h : Form.Fits body (.raw hashes)) :
    ∃ token, read index 'r' (List.replicate hashes '#' ++
        '"' :: (body ++ Raw.terminator hashes ++ rest)) = .ok token ∧
      token.kindAndValue = (.string, String.ofList body) ∧
      token.extent = ⟨index, index + ((Form.raw hashes).spell body).length⟩ := by
  obtain ⟨content, hr, hv, hc⟩ := Raw.read_terminator index (index + hashes + 2) rest h
  refine ⟨ofContent index (hashes + 1) content, ?_, ?_, ?_⟩
  · rw [read_hashes, hr]
    rfl
  · rw [kindAndValue, ofContent, hv]
  · simp only [ofContent, hc, Form.spell, Raw.terminator, List.length_append, List.length_cons,
      List.length_replicate]
    congr 1
    omega

/-- Reading the spelling of a lexeme gives a token of its kind and value, and nothing of what
follows belongs to it. -/
theorem exists_read_spelling {lexeme : Lexeme} {c : Char} {text rest : List Char} (index : Nat)
    (hs : lexeme.Spellable) (he : lexeme.EndsBefore rest)
    (ht : lexeme.spelling ++ rest = c :: text) :
    ∃ token, read index c text = .ok token ∧ token.kindAndValue = lexeme.kindAndValue ∧
      token.extent = ⟨index, index + lexeme.spelling.length⟩ := by
  cases lexeme with
  | word name =>
    simp only [Lexeme.spelling, Lexeme.Spellable] at ht hs ⊢
    cases hn : name.toList with
    | nil => simp [hn, Text.isIdentifier] at hs
    | cons d letters =>
      rw [hn] at ht hs
      obtain ⟨rfl, rfl⟩ := List.cons.inj ht
      refine ⟨_, read_word index hs he, ?_, rfl⟩
      rw [kindAndValue, verbatim, ← hn, String.ofList_toList]
      rfl
  | mark d =>
    obtain ⟨rfl, rfl⟩ := List.cons.inj ht
    refine ⟨_, read_mark index rest hs, ?_, rfl⟩
    rfl
  | separator =>
    obtain ⟨rfl, rfl⟩ := List.cons.inj ht
    exact ⟨_, rfl, rfl, rfl⟩
  | literal form body =>
    cases form with
    | quoted =>
      obtain ⟨rfl, rfl⟩ := List.cons.inj ht
      simpa [Lexeme.kindAndValue, Lexeme.spelling] using read_quoted index body.toList rest
    | raw hashes =>
      obtain ⟨rfl, rfl⟩ := List.cons.inj ht
      simpa [Lexeme.kindAndValue, Lexeme.spelling] using read_raw index rest hs

end Token

/-! ### Reading a text -/

theorem Lexing.read_of_drop_eq_nil {text : List Char} (index : Nat)
    (h : text.drop (triviaLength false text) = []) : read index text = ⟨[], none⟩ := by
  rw [read]
  split
  · rfl
  · next hd => cases h.symm.trans hd

theorem Lexing.read_of_drop_eq_cons {c : Char} {text rest : List Char} {token : Token}
    {later : Lexing} {index : Nat} (h : text.drop (triviaLength false text) = c :: rest)
    (ht : Token.read (index + triviaLength false text) c rest = .ok token)
    (hl : read token.extent.stop (rest.drop (token.extent.length - 1)) = later) :
    read index text = ⟨token :: later.tokens, later.fault?⟩ := by
  rw [read]
  split
  · next hd => cases h.symm.trans hd
  · next d rest' hd =>
    obtain ⟨rfl, rfl⟩ := List.cons.inj (h.symm.trans hd)
    rw [ht, ← hl]

/-- The text spells the lexemes, with blanks and comments around them. -/
inductive Spells : List Lexeme → List Char → Prop
  | nil {gap : List Char} : IsTrivia gap → Spells [] gap
  | cons {gap rest : List Char} {lexeme : Lexeme} {lexemes : List Lexeme} :
      IsTrivia gap → lexeme.Spellable → lexeme.EndsBefore rest → Spells lexemes rest →
      Spells (lexeme :: lexemes) (gap ++ (lexeme.spelling ++ rest))

/-- A lexeme is not empty, and nothing of it is skipped. -/
theorem Lexeme.Spellable.exists_cons {lexeme : Lexeme} (h : lexeme.Spellable) :
    ∃ c letters, lexeme.spelling = c :: letters ∧ ∀ rest, triviaLength false (c :: rest) = 0 := by
  have hz : ∀ c, Text.isBlank c = false → c ≠ '/' →
      ∀ rest, triviaLength false (c :: rest) = 0 := by
    intro c hb hc rest
    simp [triviaLength, hb, hc]
  cases lexeme with
  | word name =>
    cases hn : name.toList with
    | nil => simp [Spellable, hn, Text.isIdentifier] at h
    | cons c letters =>
      rw [Spellable, hn] at h
      have hc := Text.isIdentifierPart_of_isIdentifierStart (Bool.and_eq_true_iff.1 h).1
      refine ⟨c, letters, hn, hz c ?_ ?_⟩
      · refine Bool.eq_false_iff.2 fun hb => ?_
        exact absurd hc (by simp [isIdentifierPart_eq_false_of_isBlank hb])
      · rintro rfl
        exact absurd hc (by decide)
  | mark c =>
    have hm : ∀ c ∈ marks, Text.isBlank c = false ∧ c ≠ '/' := by
      refine forall_mem_marks.2 ?_
      decide
    exact ⟨c, [], rfl, hz c (hm c h).1 (hm c h).2⟩
  | separator => exact ⟨':', [':'], rfl, hz _ (by decide) (by decide)⟩
  | literal form body =>
    cases form with
    | quoted => exact ⟨'"', _, rfl, hz _ (by decide) (by decide)⟩
    | raw hashes => exact ⟨'r', _, rfl, hz _ (by decide) (by decide)⟩

/-- **Reading what was spelt.**  A text that spells lexemes is read to its end, as one token of
the same kind and value for each of them. -/
theorem Spells.exists_tokens {lexemes : List Lexeme} {text : List Char}
    (h : Spells lexemes text) (index : Nat) :
    ∃ tokens, Lexing.read index text = ⟨tokens, none⟩ ∧
      tokens.map Token.kindAndValue = lexemes.map Lexeme.kindAndValue := by
  induction h generalizing index with
  | @nil gap hg =>
    refine ⟨[], Lexing.read_of_drop_eq_nil index ?_, rfl⟩
    have := triviaLength_append hg []
    simp only [List.append_nil, triviaLength] at this
    rw [this]
    simp
  | @cons gap rest lexeme lexemes hg hs he _ ih =>
    -- the gap is skipped, the lexeme is read, and reading goes on right after it
    obtain ⟨c, letters, hc, hz⟩ := hs.exists_cons
    have ht : lexeme.spelling ++ rest = c :: (letters ++ rest) := by rw [hc, List.cons_append]
    obtain ⟨token, hr, hk, hx⟩ := Token.exists_read_spelling (index + gap.length) hs he ht
    obtain ⟨later, hl, hm⟩ := ih token.extent.stop
    have hskip : triviaLength false (gap ++ (lexeme.spelling ++ rest)) = gap.length := by
      rw [triviaLength_append hg, ht, hz, Nat.add_zero]
    have hdrop : (gap ++ (lexeme.spelling ++ rest)).drop
        (triviaLength false (gap ++ (lexeme.spelling ++ rest))) = c :: (letters ++ rest) := by
      rw [hskip, List.drop_left, ht]
    have hnext : (letters ++ rest).drop (token.extent.length - 1) = rest := by
      simp [hx, hc, Text.Extent.length]
    refine ⟨token :: later, ?_, by rw [List.map_cons, List.map_cons, hk, hm]⟩
    exact Lexing.read_of_drop_eq_cons hdrop (hskip ▸ hr) (hnext.symm ▸ hl)

/-! ### Spelling a text -/

/-- Blanks and comments. -/
def Trivia : Type := {gap : List Char // IsTrivia gap}

/-- The text that spells lexemes, with the given blanks and comments before each of them and at
the end. -/
def spell (gaps : Nat → Trivia) : List Lexeme → List Char
  | [] => (gaps 0).val
  | lexeme :: lexemes =>
    (gaps 0).val ++ (lexeme.spelling ++ spell (fun n => gaps (n + 1)) lexemes)

/-- Each word is followed by a mark, so nothing has to stand between the two. -/
def WordsEnd : List Lexeme → Prop
  | [] => True
  | .word _ :: lexemes => (∃ c, lexemes.head? = some (.mark c)) ∧ WordsEnd lexemes
  | _ :: lexemes => WordsEnd lexemes

theorem EndsWord.of_mem_marks {c : Char} (h : c ∈ marks) (rest : List Char) :
    EndsWord (c :: rest) := by
  intro d hd
  obtain rfl : c = d := Option.some.inj hd
  have hm : ∀ c ∈ marks, Text.isIdentifierPart c = false ∧ c ≠ '#' ∧ c ≠ '"' := by
    refine forall_mem_marks.2 ?_
    decide
  exact hm c h

theorem spells_spell {lexemes : List Lexeme} (gaps : Nat → Trivia)
    (hs : ∀ lexeme ∈ lexemes, lexeme.Spellable) (hw : WordsEnd lexemes) :
    Spells lexemes (spell gaps lexemes) := by
  induction lexemes generalizing gaps with
  | nil => exact .nil (gaps 0).property
  | cons lexeme lexemes ih =>
    obtain ⟨hl, hlater⟩ := List.forall_mem_cons.1 hs
    cases lexeme with
    | word name =>
      obtain ⟨⟨c, hc⟩, hw⟩ := hw
      refine .cons (gaps 0).property hl ?_ (ih _ hlater hw)
      cases lexemes with
      | nil => cases hc
      | cons next lexemes =>
        obtain rfl : next = .mark c := Option.some.inj hc
        have hm : c ∈ marks := hlater _ List.mem_cons_self
        exact EndsWord.append (gaps 1).property (EndsWord.of_mem_marks hm _)
    | mark c => exact .cons (gaps 0).property hl trivial (ih _ hlater hw)
    | separator => exact .cons (gaps 0).property hl trivial (ih _ hlater hw)
    | literal form body => exact .cons (gaps 0).property hl trivial (ih _ hlater hw)

end Group

end TextTemplate
