import TextTemplate.Proofs.Group.RoundTrip
import TextTemplate.Proofs.Group.Coverage

/-!
# Matching delimiters

Two ways of matching delimiters agree.  `Nesting.check` keeps a stack of the open delimiters of both
kinds, `closer?` counts the delimiters of one kind only.

* `Nesting.check_eq_ok_nil_iff`: the stack is empty behind the last token just when the parentheses
  and braces are nested (`Nested`);
* `Nesting.exists_closedBy`: where the stack ends empty, the counter finds the delimiter that takes
  the opening one off the stack.  The count is that of the delimiters of its kind above it.
-/

namespace TextTemplate

namespace Group

/-! ### Nested words -/

/-- Parentheses and braces are properly nested. -/
inductive Nested : List Char → Prop
  | nil : Nested []
  | parentheses {inner rest : List Char} :
      Nested inner → Nested rest → Nested ('(' :: (inner ++ ')' :: rest))
  | braces {inner rest : List Char} :
      Nested inner → Nested rest → Nested ('\x7b' :: (inner ++ '\x7d' :: rest))

/-- The second delimiter closes the first one. -/
def ArePartners (opening closing : Char) : Prop :=
  (Token.Kind.ofCharacter opening).closing? = some (Token.Kind.ofCharacter closing)

theorem arePartners_iff {opening closing : Char} : ArePartners opening closing ↔
    opening = '(' ∧ closing = ')' ∨ opening = '\x7b' ∧ closing = '\x7d' := by
  constructor
  · intro h
    unfold ArePartners at h
    unfold Token.Kind.ofCharacter at h
    split at h <;> split at h <;> simp_all [Token.Kind.closing?]
  · rintro (⟨rfl, rfl⟩ | ⟨rfl, rfl⟩) <;> rfl

/-- A nested word starts with a delimiter and all up to its partner. -/
theorem nested_cons_iff {c : Char} {word : List Char} : Nested (c :: word) ↔
    ∃ inner closing rest, ArePartners c closing ∧ word = inner ++ closing :: rest ∧
      Nested inner ∧ Nested rest := by
  constructor
  · intro h
    cases h with
    | parentheses hi hr => exact ⟨_, ')', _, rfl, rfl, hi, hr⟩
    | braces hi hr => exact ⟨_, '\x7d', _, rfl, rfl, hi, hr⟩
  · rintro ⟨inner, closing, rest, hp, rfl, hi, hr⟩
    rcases arePartners_iff.1 hp with ⟨rfl, rfl⟩ | ⟨rfl, rfl⟩
    · exact .parentheses hi hr
    · exact .braces hi hr

namespace Token.Kind

/-- The delimiter of the given class. -/
def mark? : Kind → Option Char
  | .leftParen => some '('
  | .rightParen => some ')'
  | .leftBrace => some '\x7b'
  | .rightBrace => some '\x7d'
  | _ => none

theorem exists_mark? {kind : Kind} (h : kind.closing?.isSome = true ∨ kind.isClosing = true) :
    ∃ c, kind.mark? = some c ∧ ofCharacter c = kind := by
  cases kind <;> first | exact ⟨_, rfl, rfl⟩ | simp [closing?, isClosing] at h

theorem mark?_eq_none {kind : Kind} (ho : kind.closing? = none) (hc : kind.isClosing = false) :
    kind.mark? = none := by
  cases kind <;> first | rfl | simp [closing?, isClosing] at ho hc

theorem isClosing_of_closing? {opening closing : Kind} (h : opening.closing? = some closing) :
    closing.isClosing = true := by
  cases opening <;> cases h <;> rfl

theorem isClosing_of_opening {kind : Kind} (h : kind.closing?.isSome = true) :
    kind.isClosing = false := by
  cases kind <;> first | rfl | cases h

/-- Each closing delimiter has one partner. -/
theorem closing?_inj {first second closing : Kind} (hf : first.closing? = some closing)
    (hs : second.closing? = some closing) : first = second := by
  cases first <;> cases hf <;> cases second <;> first | rfl | cases hs

end Token.Kind

/-- The delimiter that a token is, if it is one. -/
def Token.mark? (token : Token) : Option Char := token.kind.mark?

namespace Nesting

variable {opened outer left : List Token} {innermost token : Token}

/-! ### One token -/

theorem check_closing_nil (h : token.kind.isClosing = true) (rest : List Token) :
    check [] (token :: rest) = .error ⟨.unexpectedClosing, token.extent⟩ := by
  have ho := Token.Kind.closing?_eq_none_of_isClosing h
  simp [check, h, ho]

/-- A token is put on the stack, takes the top off, or does neither. -/
theorem check_cons_eq_ok_iff {rest : List Token} : check opened (token :: rest) = .ok left ↔
    token.kind.closing?.isSome = true ∧ check (token :: opened) rest = .ok left ∨
    token.kind.isClosing = true ∧ (∃ innermost outer, opened = innermost :: outer ∧
      innermost.kind.closing? = some token.kind ∧ check outer rest = .ok left) ∨
    token.kind.closing? = none ∧ token.kind.isClosing = false ∧
      check opened rest = .ok left := by
  by_cases ho : token.kind.closing?.isSome = true
  · have hc := Token.Kind.isClosing_of_opening ho
    have hn : token.kind.closing? ≠ none := Option.isSome_iff_ne_none.1 ho
    simp [check_opening ho, ho, hc, hn]
  · rw [Option.not_isSome_iff_eq_none] at ho
    cases hc : token.kind.isClosing with
    | false => simp [check_of_kind rest ho hc, ho]
    | true =>
      cases opened with
      | nil => simp [check_closing_nil hc, ho]
      | cons innermost outer =>
        rw [check_closing hc]
        by_cases hm : innermost.kind.closing? = some token.kind <;> simp [hm, ho]

theorem check_append (opened front back : List Token) :
    check opened (front ++ back) = (check opened front).bind fun opened => check opened back := by
  induction front generalizing opened with
  | nil => rfl
  | cons token front ih =>
    rw [List.cons_append]
    by_cases ho : token.kind.closing?.isSome = true
    · rw [check_opening ho, check_opening ho, ih]
    · rw [Option.not_isSome_iff_eq_none] at ho
      cases hc : token.kind.isClosing with
      | false => rw [check_of_kind _ ho hc, check_of_kind _ ho hc, ih]
      | true =>
        cases opened with
        | nil => rw [check_closing_nil hc, check_closing_nil hc, Except.bind]
        | cons innermost outer =>
          rw [check_closing hc, check_closing hc]
          split
          · exact ih outer
          · rfl

/-! ### The stack -/

/-- The word closes the open delimiters, innermost first, and is nested between and behind them. -/
def Closes : List Token → List Char → Prop
  | [], word => Nested word
  | innermost :: outer, word => ∃ inner closing rest, word = inner ++ closing :: rest ∧
      Nested inner ∧ innermost.kind.closing? = some (Token.Kind.ofCharacter closing) ∧
      Closes outer rest

variable {c : Char} {word : List Char}

theorem closes_nil_iff : Closes opened [] ↔ opened = [] := by
  cases opened with
  | nil => exact iff_of_true .nil rfl
  | cons innermost outer => simp [Closes]

/-- An opening delimiter is put on the stack. -/
theorem closes_opening_iff (hc : Token.Kind.ofCharacter c = token.kind)
    (ho : token.kind.closing?.isSome = true) :
    Closes opened (c :: word) ↔ Closes (token :: opened) word := by
  cases opened with
  | nil =>
    rw [Closes, nested_cons_iff]
    simp only [Closes, ArePartners, hc]
    grind
  | cons innermost outer =>
    constructor
    · rintro ⟨inner, closing, rest, hword, hi, hm, hr⟩
      cases inner with
      | nil =>
        -- the delimiter closes nothing
        obtain ⟨rfl, -⟩ := List.cons.inj hword
        rw [hc] at hm
        simp [Token.Kind.closing?_eq_none_of_isClosing (Token.Kind.isClosing_of_closing? hm)] at ho
      | cons d inner =>
        obtain ⟨rfl, rfl⟩ := List.cons.inj hword
        obtain ⟨first, partner, second, hp, rfl, hf, hs⟩ := nested_cons_iff.1 hi
        rw [ArePartners, hc] at hp
        exact ⟨first, partner, second ++ closing :: rest, by simp, hf, hp,
          second, closing, rest, rfl, hs, hm, hr⟩
    · rintro ⟨first, partner, behind, rfl, hf, hp, second, closing, rest, rfl, hs, hm, hr⟩
      refine ⟨c :: (first ++ partner :: second), closing, rest, by simp, ?_, hm, hr⟩
      exact nested_cons_iff.2 ⟨first, partner, second, by rwa [ArePartners, hc], rfl, hf, hs⟩

/-- A closing delimiter takes its partner off the stack. -/
theorem closes_closing_iff (hc : (Token.Kind.ofCharacter c).isClosing = true) :
    Closes opened (c :: word) ↔ ∃ innermost outer, opened = innermost :: outer ∧
      innermost.kind.closing? = some (Token.Kind.ofCharacter c) ∧ Closes outer word := by
  -- no nested word starts with it
  have hnot : ∀ word, ¬Nested (c :: word) := by
    intro word h
    obtain ⟨_, closing, _, hp, -⟩ := nested_cons_iff.1 h
    have hopening : (Token.Kind.ofCharacter c).closing?.isSome = true := by
      rw [hp]
      rfl
    rw [Token.Kind.isClosing_of_opening hopening] at hc
    cases hc
  cases opened with
  | nil => simp [Closes, hnot]
  | cons innermost outer =>
    constructor
    · rintro ⟨inner, closing, rest, hword, hi, hm, hr⟩
      cases inner with
      | nil =>
        obtain ⟨rfl, rfl⟩ := List.cons.inj hword
        exact ⟨innermost, outer, rfl, hm, hr⟩
      | cons d inner =>
        obtain ⟨rfl, rfl⟩ := List.cons.inj hword
        exact absurd hi (hnot inner)
    · rintro ⟨_, _, h, hm, hr⟩
      obtain ⟨rfl, rfl⟩ := List.cons.inj h
      exact ⟨[], c, word, rfl, .nil, hm, hr⟩

/-- **The stack is empty in the end just when the delimiters are nested.** -/
theorem check_eq_ok_nil_iff (opened tokens : List Token) :
    check opened tokens = .ok [] ↔ Closes opened (tokens.filterMap Token.mark?) := by
  induction tokens generalizing opened with
  | nil => rw [check, Except.ok.injEq, List.filterMap_nil, closes_nil_iff]
  | cons token rest ih =>
    rw [check_cons_eq_ok_iff]
    by_cases ho : token.kind.closing?.isSome = true
    · obtain ⟨c, hm, hc⟩ : ∃ c, token.mark? = some c ∧ _ := Token.Kind.exists_mark? (.inl ho)
      have hn := Token.Kind.isClosing_of_opening ho
      rw [List.filterMap_cons_some hm, closes_opening_iff hc ho, ih]
      grind
    · rw [Option.not_isSome_iff_eq_none] at ho
      by_cases hn : token.kind.isClosing = true
      · obtain ⟨c, hm, hc⟩ : ∃ c, token.mark? = some c ∧ _ := Token.Kind.exists_mark? (.inr hn)
        rw [List.filterMap_cons_some hm, closes_closing_iff (hc ▸ hn), hc]
        simp [ho, hn, ih]
      · rw [Bool.not_eq_true] at hn
        have hm : token.mark? = none := Token.Kind.mark?_eq_none ho hn
        rw [List.filterMap_cons_none hm]
        simp [ho, hn, ih]

/-! ### The counter -/

/-- With `above` on top of the opening delimiter, the delimiter stays on the stack throughout
`inner`, is its top behind it, and is taken off by `closing`. -/
structure ClosedBy (opened above : List Token) (opening : Token) (inner : List Token)
    (closing : Token) : Prop where
  stays : ∀ front, front <+: inner →
    ∃ more, check (above ++ opening :: opened) front = .ok (more ++ opening :: opened)
  isTop : check (above ++ opening :: opened) inner = .ok (opening :: opened)
  isPartner : opening.kind.closing? = some closing.kind

theorem ClosedBy.cons {above more : List Token} {opening : Token} {inner : List Token}
    {closing : Token}
    (hs : ∀ rest, check (above ++ opening :: opened) (token :: rest) =
      check (more ++ opening :: opened) rest)
    (h : ClosedBy opened more opening inner closing) :
    ClosedBy opened above opening (token :: inner) closing := by
  refine ⟨fun front hf => ?_, (hs inner).trans h.isTop, h.isPartner⟩
  cases front with
  | nil => exact ⟨above, rfl⟩
  | cons first front =>
    obtain ⟨rfl, hfront⟩ := List.cons_prefix_cons.1 hf
    rw [hs]
    exact h.stays front hfront

/-- The number of delimiters of the class above another one. -/
def countAbove (opening : Token.Kind) (above : List Token) : Nat :=
  above.countP (·.kind = opening)

section

variable {opening kind : Token.Kind} {top : Token}

/-- The counter goes up with a delimiter of the class that is put on the stack. -/
theorem closer?_push (hk : opening.closing? = some kind) (ho : token.kind.closing?.isSome = true)
    (above rest : List Token) : closer? opening kind (countAbove opening above) (token :: rest) =
      closer? opening kind (countAbove opening (token :: above)) rest := by
  have hne : token.kind ≠ kind := by
    rintro rfl
    simp [Token.Kind.closing?_eq_none_of_isClosing (Token.Kind.isClosing_of_closing? hk)] at ho
  conv => lhs; unfold closer?
  by_cases he : token.kind = opening
  · simp [countAbove, he]
  · simp [countAbove, he, hne]

/-- The counter goes down with a delimiter of the class that is taken off: only delimiters of one
class have this partner. -/
theorem closer?_pop (hk : opening.closing? = some kind)
    (hm : top.kind.closing? = some token.kind) (above rest : List Token) :
    closer? opening kind (countAbove opening (top :: above)) (token :: rest) =
      closer? opening kind (countAbove opening above) rest := by
  have hne : token.kind ≠ opening := by
    rintro rfl
    rw [Token.Kind.closing?_eq_none_of_isClosing (Token.Kind.isClosing_of_closing? hm)] at hk
    cases hk
  conv => lhs; unfold closer?
  rw [if_neg hne]
  by_cases he : token.kind = kind
  · have htop : top.kind = opening := Token.Kind.closing?_inj (he ▸ hm) hk
    simp [countAbove, he, htop]
  · have htop : top.kind ≠ opening := by
      rintro rfl
      exact he (Option.some.inj (hm.symm.trans hk))
    simp [countAbove, he, htop]

theorem closer?_skip (hk : opening.closing? = some kind) (ho : token.kind.closing? = none)
    (hn : token.kind.isClosing = false) (depth : Nat) (rest : List Token) :
    closer? opening kind depth (token :: rest) = closer? opening kind depth rest := by
  have hne : token.kind ≠ opening := by
    rintro rfl
    simp [ho] at hk
  have hne' : token.kind ≠ kind := by
    rintro rfl
    simp [Token.Kind.isClosing_of_closing? hk] at hn
  conv => lhs; unfold closer?
  rw [if_neg hne, if_neg hne']

end

/-- **The counter and the stack agree.**  The number of delimiters to pass over is that of the
delimiters of the same class above the one that is to be closed. -/
theorem exists_closedBy {opening : Token} {kind : Token.Kind}
    (hk : opening.kind.closing? = some kind) (above : List Token) {tokens : List Token}
    (h : check (above ++ opening :: opened) tokens = .ok []) :
    ∃ inner closing rest, tokens = inner ++ closing :: rest ∧
      ClosedBy opened above opening inner closing ∧
      closer? opening.kind kind (countAbove opening.kind above) tokens = some closing := by
  induction tokens generalizing above with
  | nil => simp [check] at h
  | cons token tokens ih =>
    rcases check_cons_eq_ok_iff.1 h with ⟨ho, h⟩ | ⟨hn, innermost, outer, hstack, hm, h⟩ |
      ⟨ho, hn, h⟩
    · -- one more delimiter stands above
      obtain ⟨inner, closing, rest, rfl, hc, hcount⟩ := ih (token :: above) h
      exact ⟨token :: inner, closing, rest, rfl, hc.cons (check_opening ho _),
        (closer?_push hk ho _ _).trans hcount⟩
    · cases above with
      | nil =>
        -- the delimiter itself is on top
        obtain ⟨rfl, rfl⟩ := List.cons.inj hstack
        obtain rfl := Option.some.inj (hk.symm.trans hm)
        have hne : token.kind ≠ opening.kind := by
          intro he
          rw [← he, Token.Kind.closing?_eq_none_of_isClosing hn] at hk
          cases hk
        refine ⟨[], token, tokens, rfl, ⟨fun front hf => ?_, rfl, hm⟩, ?_⟩
        · obtain rfl := List.prefix_nil.1 hf
          exact ⟨[], rfl⟩
        · simp [closer?, countAbove, hne]
      | cons top above =>
        obtain ⟨rfl, rfl⟩ := List.cons.inj hstack
        obtain ⟨inner, closing, rest, rfl, hc, hcount⟩ := ih above h
        refine ⟨token :: inner, closing, rest, rfl, hc.cons fun rest => ?_,
          (closer?_pop hk hm _ _).trans hcount⟩
        rw [List.cons_append, check_closing hn, if_pos hm]
    · obtain ⟨inner, closing, rest, rfl, hc, hcount⟩ := ih above h
      exact ⟨token :: inner, closing, rest, rfl, hc.cons fun rest => check_of_kind rest ho hn,
        (closer?_skip hk ho hn _ _).trans hcount⟩

end Nesting

/-! ### The delimiters of a text -/

/-- The characters that are parentheses and braces. -/
def delimiterMarks : List Char := ['(', ')', '\x7b', '\x7d']

/-- The parentheses and braces of a text outside literals and comments, in their order: those in the
ranges of all tokens that are no literals. -/
def delimiters (source : Text.Source) : List Char :=
  ((Lexing.read 0 source.text).tokens.filter (·.kind ≠ .string)).flatMap fun token =>
    (token.extent.slice source.text).filter (· ∈ delimiterMarks)

theorem Token.Kind.mark?_ofCharacter (c : Char) :
    (ofCharacter c).mark? = if c ∈ delimiterMarks then some c else none := by
  unfold ofCharacter
  split <;> simp_all [delimiterMarks, mark?]

/-- A token that is no literal holds a delimiter only if it is one. -/
theorem Token.filter_value_plain (index : Nat) (c : Char) (text : List Char) :
    (plain index c text).value.toList.filter (· ∈ delimiterMarks) =
      (plain index c text).mark?.toList := by
  unfold plain
  split
  · next hc =>
    have hpart : ∀ d ∈ delimiterMarks, Text.isIdentifierPart d = false := by
      simp only [delimiterMarks, List.forall_mem_cons, List.not_mem_nil, false_implies,
        implies_true]
      decide
    have hnone : ∀ d ∈ c :: text.takeWhile Text.isIdentifierPart, ¬d ∈ delimiterMarks := by
      intro d hd hm
      have hd : Text.isIdentifierPart d = true := by
        rcases List.mem_cons.1 hd with rfl | hd
        · exact Text.isIdentifierPart_of_isIdentifierStart hc
        · exact List.all_eq_true.1 List.all_takeWhile d hd
      rw [hpart d hm] at hd
      cases hd
    rw [verbatim, String.toList_ofList, List.filter_eq_nil_iff.2 (by simpa using hnone)]
    rfl
  · split
    · rw [verbatim, String.toList_ofList]
      rfl
    · rw [verbatim, mark?, Kind.mark?_ofCharacter, String.toList_ofList]
      by_cases hm : c ∈ delimiterMarks <;> simp [hm]

theorem delimiters_eq (source : Text.Source) :
    delimiters source = (Lexing.read 0 source.text).tokens.filterMap Token.mark? := by
  have htoken : ∀ token ∈ (Lexing.read 0 source.text).tokens, token.kind ≠ .string →
      (token.extent.slice source.text).filter (· ∈ delimiterMarks) = token.mark?.toList := by
    intro token hm hk
    have hvalue := (Token.occupies_of_mem hm).value hk
    obtain ⟨before, c, rest, -, -, hread⟩ := Lexing.exists_read_of_mem hm
    rw [Token.read_eq_plain fun hl => hk (Token.kind_eq_string_of_opensLiteral hread hl)] at hread
    cases hread
    have hslice := congrArg String.toList hvalue
    rw [String.toList_ofList] at hslice
    rw [← hslice, Token.filter_value_plain]
  unfold delimiters
  generalize (Lexing.read 0 source.text).tokens = tokens at htoken ⊢
  induction tokens with
  | nil => rfl
  | cons token tokens ih =>
    obtain ⟨hfirst, hrest⟩ := List.forall_mem_cons.1 htoken
    by_cases hk : token.kind = .string
    · have hm : token.mark? = none := by simp [Token.mark?, Token.Kind.mark?, hk]
      rw [List.filter_cons_of_neg (by simp [hk]), List.filterMap_cons_none hm, ih hrest]
    · rw [List.filter_cons_of_pos (by simp [hk]), List.flatMap_cons, hfirst hk, ih hrest,
        List.filterMap_cons]
      cases token.mark? <;> rfl

/-- Along the tokens of a text, the stack holds `opened` behind `before`.  The delimiter `opening`
is put on it, stays there throughout `inner`, and is taken off by `closing`. -/
structure Pairs (opened before : List Token) (opening : Token) (inner : List Token)
    (closing : Token) : Prop where
  pushed : Nesting.check [] before = .ok opened
  stays : ∀ front, front <+: inner → ∃ more,
    Nesting.check [] (before ++ opening :: front) = .ok (more ++ opening :: opened)
  isTop : Nesting.check [] (before ++ opening :: inner) = .ok (opening :: opened)
  behind : Nesting.check [] (before ++ opening :: (inner ++ [closing])) = .ok opened

variable {source : Text.Source}

theorem check_tokens_eq_ok_nil_iff :
    Nesting.check [] (Lexing.read 0 source.text).tokens = .ok [] ↔ Nested (delimiters source) := by
  rw [delimiters_eq, Nesting.check_eq_ok_nil_iff, Nesting.Closes]

theorem tokenize_eq_ok_iff_nested : (∃ read, tokenize source = .ok read) ↔
    (Lexing.read 0 source.text).fault? = none ∧ Nested (delimiters source) := by
  constructor
  · rintro ⟨read, h⟩
    obtain ⟨spelt, ht, rfl⟩ := Except.map_eq_ok_iff.1 h
    obtain ⟨hread, hcheck⟩ := tokens_eq_ok_iff.1 ht
    refine ⟨congrArg Lexing.fault? hread, check_tokens_eq_ok_nil_iff.1 ?_⟩
    rwa [hread]
  · rintro ⟨hfault, hn⟩
    have hread := congrArg (Lexing.mk (Lexing.read 0 source.text).tokens) hfault
    have ht := tokens_eq_ok_iff.2 ⟨hread, check_tokens_eq_ok_nil_iff.2 hn⟩
    exact ⟨_, Except.map_eq_ok_iff.2 ⟨_, ht, rfl⟩⟩

/-- Where the delimiters are nested, only a literal can be at fault. -/
theorem fault?_eq_some_of_nested {fault : Fault} (hn : Nested (delimiters source))
    (h : tokenize source = .error fault) : (Lexing.read 0 source.text).fault? = some fault := by
  have hcheck := check_tokens_eq_ok_nil_iff.2 hn
  rw [tokenize, tokens] at h
  simp only [hcheck] at h
  cases hfault : (Lexing.read 0 source.text).fault? with
  | none => simp [hfault, Except.map] at h
  | some misspelt =>
    simp only [hfault, Except.map, Except.error.injEq] at h
    exact congrArg some h

/-- Each opening delimiter is paired with another one, and it is blamed up to that. -/
theorem exists_pairs {before rest : List Token} {opening : Token} {kind : Token.Kind}
    (h : tokens source = .ok (before ++ opening :: rest)) (hk : opening.kind.closing? = some kind) :
    ∃ opened inner closing after, rest = inner ++ closing :: after ∧
      Pairs opened before opening inner closing ∧
      closer? opening.kind kind 0 rest = some closing ∧
      blamed opening rest = opening.extent.join closing.extent := by
  obtain ⟨-, hcheck⟩ := tokens_eq_ok_iff.1 h
  have hopening : opening.kind.closing?.isSome = true := by simp [hk]
  cases hbefore : Nesting.check [] before with
  | error fault => simp [Nesting.check_append, hbefore, Except.bind] at hcheck
  | ok opened =>
    have hbehind : ∀ front, Nesting.check [] (before ++ opening :: front) =
        Nesting.check (opening :: opened) front := fun front => by
      rw [Nesting.check_append, hbefore, Except.bind, Nesting.check_opening hopening]
    have hrest : Nesting.check ([] ++ opening :: opened) rest = .ok [] := hbehind rest ▸ hcheck
    obtain ⟨inner, closing, after, rfl, hclosed, hcount⟩ := Nesting.exists_closedBy hk [] hrest
    have hclosing := Token.Kind.isClosing_of_closing? hclosed.isPartner
    have hfound : closer? opening.kind kind 0 (inner ++ closing :: after) = some closing := hcount
    have htop : Nesting.check (opening :: opened) inner = .ok (opening :: opened) := hclosed.isTop
    refine ⟨opened, inner, closing, after, rfl, ⟨hbefore, fun front hf => ?_, ?_, ?_⟩, hfound, ?_⟩
    · rw [hbehind]
      exact hclosed.stays front hf
    · rw [hbehind, htop]
    · rw [hbehind, Nesting.check_append, htop, Except.bind, Nesting.check_closing hclosing,
        if_pos hclosed.isPartner]
      rfl
    · simp [blamed, hk, hfound]

/-- **Stack and counter match the same delimiters.**  A text is read to its end just when no literal
in it is misspelt and its parentheses and braces are nested, outside literals and comments.  Then
each opening delimiter is blamed up to the delimiter that takes it off the stack, though only
delimiters of its kind are counted to find that one. -/
theorem delimiters_match (source : Text.Source) :
    ((∃ read, tokenize source = .ok read) ↔
      (Lexing.read 0 source.text).fault? = none ∧ Nested (delimiters source)) ∧
    (∀ fault, tokenize source = .error fault →
      (Lexing.read 0 source.text).fault? = some fault ∨ ¬Nested (delimiters source)) ∧
    ∀ before opening rest kind, tokens source = .ok (before ++ opening :: rest) →
      opening.kind.closing? = some kind →
      ∃ opened inner closing after, rest = inner ++ closing :: after ∧
        Pairs opened before opening inner closing ∧
        closer? opening.kind kind 0 rest = some closing ∧
        blamed opening rest = opening.extent.join closing.extent := by
  refine ⟨tokenize_eq_ok_iff_nested, fun fault h => ?_, fun before opening rest kind h hk => ?_⟩
  · by_cases hn : Nested (delimiters source)
    · exact .inl (fault?_eq_some_of_nested hn h)
    · exact .inr hn
  · exact exists_pairs h hk

theorem delimiters_match_of_both_kinds :
    Nested (delimiters (.ofString "f(\x7b()\x7d\"(\")")) ∧
    ∃ opened inner closing, closing.extent = ⟨9, 10⟩ ∧
      Pairs opened [⟨.identifier, "f", ⟨0, 1⟩, []⟩] ⟨.leftParen, "(", ⟨1, 2⟩, []⟩ inner
        closing := by
  have htokens : tokens (.ofString "f(\x7b()\x7d\"(\")") =
      .ok ([⟨.identifier, "f", ⟨0, 1⟩, []⟩] ++
        ⟨.leftParen, "(", ⟨1, 2⟩, []⟩ :: [⟨.leftBrace, "\x7b", ⟨2, 3⟩, []⟩,
          ⟨.leftParen, "(", ⟨3, 4⟩, []⟩, ⟨.rightParen, ")", ⟨4, 5⟩, []⟩,
          ⟨.rightBrace, "\x7d", ⟨5, 6⟩, []⟩, ⟨.string, "(", ⟨6, 9⟩, [7, 8]⟩,
          ⟨.rightParen, ")", ⟨9, 10⟩, []⟩]) := by cbv
  obtain ⟨hiff, -, hmatch⟩ := delimiters_match (.ofString "f(\x7b()\x7d\"(\")")
  have hread : ∃ read, tokenize (.ofString "f(\x7b()\x7d\"(\")") = .ok read :=
    ⟨_, Except.map_eq_ok_iff.2 ⟨_, htokens, rfl⟩⟩
  obtain ⟨opened, inner, closing, after, -, hpairs, hcount, -⟩ := hmatch _ _ _ _ htokens rfl
  obtain rfl := Option.some.inj hcount
  exact ⟨(hiff.1 hread).2, opened, inner, _, rfl, hpairs⟩

end Group

end TextTemplate
