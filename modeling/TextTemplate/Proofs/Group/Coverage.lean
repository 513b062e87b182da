import TextTemplate.Proofs.Group.Offsets
import TextTemplate.Proofs.Places.Locations

/-!
# Reading loses nothing

The tokens of a text stand for all of it, except for blanks and comments.  A token is the front of
the text that it was read from (`Token.IsReadFrom`), the next one is looked for right behind it, and
only blanks and comments are skipped on the way (`LeavesTrivia`).
-/

namespace TextTemplate

namespace Group

/-! ### One token -/

namespace Token

/-- The token stands for the characters `spelt` at `index`, which `later` follows.  A literal stands
for them by its decoded value, any other token as it is spelt. -/
structure IsReadFrom (token : Token) (index : Nat) (spelt later : List Char) : Prop where
  ne_nil : spelt ≠ []
  extent : token.extent = ⟨index, index + spelt.length⟩
  kind_ne : token.kind ≠ .endOfInput
  value : token.kind ≠ .string → token.value = String.ofList spelt
  /-- An identifier ends where no character goes on with it. -/
  maximal : token.kind = .identifier →
    Text.isIdentifier spelt = true ∧ ∀ d, later.head? = some d → Text.isIdentifierPart d = false

variable {index : Nat} {c : Char} {text : List Char} {token : Token}

theorem isReadFrom_verbatim {kind : Kind} {spelt : List Char} (index : Nat) (later : List Char)
    (hne : spelt ≠ []) (hend : kind ≠ .endOfInput) (hk : kind ≠ .identifier) :
    (verbatim kind index spelt).IsReadFrom index spelt later :=
  ⟨hne, rfl, hend, fun _ => rfl, fun h => absurd h hk⟩

theorem Kind.ofCharacter_ne (c : Char) :
    Kind.ofCharacter c ≠ .endOfInput ∧ Kind.ofCharacter c ≠ .identifier := by
  unfold Kind.ofCharacter
  split <;> simp

theorem head?_dropWhile_eq_false (text : List Char) (d : Char)
    (h : (text.dropWhile Text.isIdentifierPart).head? = some d) :
    Text.isIdentifierPart d = false := by
  have hd := List.head?_dropWhile_not Text.isIdentifierPart text
  rwa [h] at hd

theorem exists_isReadFrom_plain (index : Nat) (c : Char) (text : List Char) :
    ∃ spelt later, c :: text = spelt ++ later ∧
      (plain index c text).IsReadFrom index spelt later := by
  unfold plain
  split
  · next hc =>
    have hparts : (text.takeWhile Text.isIdentifierPart).all Text.isIdentifierPart = true :=
      List.all_takeWhile
    refine ⟨c :: text.takeWhile Text.isIdentifierPart, text.dropWhile Text.isIdentifierPart,
      by simp, by simp, rfl, by simp [verbatim], fun _ => rfl, fun _ => ⟨?_, ?_⟩⟩
    · exact Bool.and_eq_true_iff.2 ⟨hc, hparts⟩
    · exact head?_dropWhile_eq_false text
  · split
    · next hp =>
      obtain ⟨rfl, hp⟩ := hp
      obtain ⟨text, rfl⟩ := List.head?_eq_some_iff.1 hp
      exact ⟨[':', ':'], text, rfl,
        isReadFrom_verbatim index text (by simp) (by simp) (by simp)⟩
    · obtain ⟨hend, hk⟩ := Kind.ofCharacter_ne c
      exact ⟨[c], text, rfl, isReadFrom_verbatim index text (by simp) hend hk⟩

theorem kind_eq_string_of_opensLiteral (h : read index c text = .ok token)
    (hl : OpensLiteral c text) : token.kind = .string := by
  rcases hl with ⟨hashes, ho⟩ | rfl | ⟨rfl, ha⟩
  · obtain ⟨rfl, later, rfl⟩ := Raw.exists_of_opening? ho
    rw [read_hashes] at h
    obtain ⟨content, -, rfl⟩ := Except.map_eq_ok_iff.1 h
    rfl
  · rw [read_quote] at h
    obtain ⟨content, -, rfl⟩ := Except.map_eq_ok_iff.1 h
    rfl
  · obtain ⟨later, rfl⟩ := List.head?_eq_some_iff.1 ha
    rw [read_angle] at h
    obtain ⟨content, -, rfl⟩ := Except.map_eq_ok_iff.1 h
    rfl

/-- Whatever is read stands at the front of the text. -/
theorem exists_isReadFrom (h : read index c text = .ok token) :
    ∃ spelt later, c :: text = spelt ++ later ∧ token.IsReadFrom index spelt later := by
  by_cases hl : OpensLiteral c text
  · have hk := kind_eq_string_of_opensLiteral h hl
    obtain ⟨delimiters, spelt, later, content, htext, henclosed, rfl⟩ := exists_delimiters h hk
    have hpos := delimiters.length_opening_pos
    refine ⟨delimiters.opening ++ spelt ++ delimiters.closing, later, htext, ?_, ?_, by simp [hk],
      fun hne => absurd hk hne, by simp [hk]⟩
    · rw [← List.length_pos_iff, List.length_append, List.length_append]
      omega
    · simp only [ofContent, henclosed.close_eq, List.length_append, Nat.add_assoc]
  · rw [read_eq_plain hl] at h
    cases h
    exact exists_isReadFrom_plain index c text

/-- What the characters in the range of a token of a text say of it. -/
structure Occupies (source : Text.Source) (token : Token) : Prop where
  kind_ne : token.kind ≠ .endOfInput
  start_lt_stop : token.extent.start < token.extent.stop
  stop_le : token.extent.stop ≤ source.length
  /-- A token other than a literal is the characters in its range. -/
  value : token.kind ≠ .string → token.value = String.ofList (token.extent.slice source.text)
  /-- The range of an identifier could not be longer. -/
  maximal : token.kind = .identifier → Text.isIdentifier token.value.toList = true ∧
    ∀ c, source.text[token.extent.stop]? = some c → Text.isIdentifierPart c = false
  /-- The token is shown at the lines and columns of its range, as counted from the text. -/
  span : source.span token.extent =
    let first := Text.Location.behind (source.text.take token.extent.start)
    let last := Text.Location.behind (source.text.take token.extent.stop)
    ⟨first.line, first.column, last.line, last.column⟩

theorem IsReadFrom.occupies {source : Text.Source} {before spelt later : List Char}
    (h : token.IsReadFrom before.length spelt later)
    (htext : source.text = before ++ (spelt ++ later)) : token.Occupies source := by
  have hpos := List.length_pos_iff.2 h.ne_nil
  have hlt : token.extent.start < token.extent.stop := by
    simp only [h.extent]
    omega
  have hle : token.extent.stop ≤ source.length := by
    simp only [h.extent, Text.Source.length, htext, List.length_append]
    omega
  have hslice : token.extent.slice source.text = spelt := by
    simp [h.extent, htext, Text.Extent.slice, Text.Extent.length]
  have hnext : source.text[token.extent.stop]? = later.head? := by
    rw [htext, h.extent, ← List.length_append, ← List.append_assoc, List.head?_eq_getElem?,
      List.getElem?_append_right (Nat.le_refl _), Nat.sub_self]
  refine ⟨h.kind_ne, hlt, hle, hslice.symm ▸ h.value, fun hk => ?_, ?_⟩
  · rw [h.value (by simp [hk]), String.toList_ofList, hnext]
    exact h.maximal hk
  · have hstart : token.extent.start ≤ source.length := Nat.le_of_lt (Nat.lt_of_lt_of_le hlt hle)
    rw [Text.Source.span, Text.Source.location_eq_behind hstart,
      Text.Source.location_eq_behind hle]

end Token

theorem Token.occupies_of_mem {source : Text.Source} {token : Token}
    (h : token ∈ (Lexing.read 0 source.text).tokens) : token.Occupies source := by
  obtain ⟨before, c, rest, htext, -, hread⟩ := Lexing.exists_read_of_mem h
  rw [Nat.zero_add] at hread
  obtain ⟨spelt, later, hspelt, hfrom⟩ := Token.exists_isReadFrom hread
  exact hfrom.occupies (hspelt ▸ htext)

/-! ### Between the tokens -/

/-- The text consists of blanks and comments, of which the last may be open at its end. -/
def EndsInTrivia (text : List Char) : Prop :=
  IsTrivia text ∨ ∃ gap line, text = gap ++ '/' :: '/' :: line ∧ IsTrivia gap ∧ '\n' ∉ line

/-- From the index on, there are only blanks and whole comments in front of each of the tokens, and
blanks and comments behind the last of them. -/
def LeavesTrivia (text : List Char) : Nat → List Token → Prop
  | index, [] => EndsInTrivia (text.drop index)
  | index, token :: rest =>
    IsTrivia (Text.Extent.slice ⟨index, token.extent.start⟩ text) ∧
      LeavesTrivia text token.extent.stop rest

theorem Lexing.leavesTrivia_read {front text : List Char} {tokens : List Token}
    (h : read front.length text = ⟨tokens, none⟩) :
    LeavesTrivia (front ++ text) front.length tokens := by
  induction hl : text.length using Nat.strongRecOn generalizing front text tokens with
  | _ length ih =>
    rcases cases_of_text text with hg | ⟨gap, line, rfl, hg, hn⟩ | ⟨gap, c, rest, rfl, hg, hc⟩
    · rw [read_of_isTrivia hg] at h
      cases h
      exact .inl (by rwa [List.drop_left])
    · rw [read_of_open_comment hg hn] at h
      cases h
      exact .inr ⟨gap, line, by rw [List.drop_left], hg, hn⟩
    · obtain ⟨token, later, rfl, hread, -, hlater⟩ := exists_token_of_read hg hc h
      obtain ⟨spelt, behind, hspelt, hfrom⟩ := Token.exists_isReadFrom hread
      obtain ⟨d, spelt, rfl⟩ := List.exists_cons_of_ne_nil hfrom.ne_nil
      rw [List.cons_append] at hspelt
      obtain ⟨rfl, rfl⟩ := List.cons.inj hspelt
      -- what is left behind the token is read from the end of its range on
      have hstop : token.extent.stop = (front ++ gap ++ c :: spelt).length := by
        simp only [hfrom.extent, List.length_append]
      have hdrop : (spelt ++ behind).drop (token.extent.length - 1) = behind := by
        simp [hfrom.extent, Text.Extent.length]
      have hshort : behind.length < length := by
        rw [← hl]
        simp only [List.length_append, List.length_cons]
        omega
      have hslice : Text.Extent.slice ⟨front.length, token.extent.start⟩
          (front ++ (gap ++ c :: (spelt ++ behind))) = gap := by
        simp [hfrom.extent, Text.Extent.slice, Text.Extent.length]
      rw [hdrop, hstop] at hlater
      refine ⟨hslice.symm ▸ hg, ?_⟩
      have hrest := ih _ hshort hlater rfl
      rw [← hstop] at hrest
      simpa using hrest

/-- Tokens that stand one behind the other have no character in common. -/
theorem Token.ArePlaced.pairwise {upper lower : Nat} {tokens : List Token}
    (h : ArePlaced upper lower tokens) :
    tokens.Pairwise fun first second => first.extent.stop ≤ second.extent.start := by
  induction tokens generalizing lower with
  | nil => exact .nil
  | cons token rest ih =>
    obtain ⟨-, hrest⟩ := h
    exact .cons (fun other hm => (hrest.placedIn other hm).extent.lower_le) (ih hrest)

/-! ### The whole text -/

/-- **Reading loses nothing.**  The tokens in front of the end of the text stand for nonempty
ranges of it, in ascending order and without overlap, and for everything but the blanks and the
comments.  A token that is no literal has the characters of its range as its value, and an
identifier is as long as it can be. -/
theorem tokens_leave_only_trivia {source : Text.Source} {read : List Token}
    (h : tokenize source = .ok read) :
    ∃ spelt, read = spelt ++ [Token.endOfInput source] ∧
      (∀ token ∈ spelt, token.Occupies source) ∧
      spelt.Pairwise (fun first second => first.extent.stop ≤ second.extent.start) ∧
      LeavesTrivia source.text 0 spelt := by
  obtain ⟨spelt, ht, rfl⟩ := Except.map_eq_ok_iff.1 h
  obtain ⟨hread, -⟩ := tokens_eq_ok_iff.1 ht
  have hplaced := (Lexing.arePlaced_read 0 source.text).1
  rw [hread] at hplaced
  refine ⟨spelt, rfl, fun token hm => ?_, hplaced.pairwise, ?_⟩
  · exact Token.occupies_of_mem (by rwa [hread])
  · have hleaves : LeavesTrivia ([] ++ source.text) ([] : List Char).length spelt :=
      Lexing.leavesTrivia_read hread
    exact hleaves

theorem tokens_leave_only_trivia_of_comments :
    ∃ spelt, tokenize (.ofString "/ a// b\n::\"c\" //") =
        .ok (spelt ++ [Token.endOfInput (.ofString "/ a// b\n::\"c\" //")]) ∧
      spelt.map Token.extent = [⟨0, 1⟩, ⟨2, 3⟩, ⟨8, 10⟩, ⟨10, 13⟩] ∧
      (∀ token ∈ spelt, token.Occupies (.ofString "/ a// b\n::\"c\" //")) ∧
      LeavesTrivia (Text.Source.ofString "/ a// b\n::\"c\" //").text 0 spelt := by
  have htokens : tokenize (.ofString "/ a// b\n::\"c\" //") =
      .ok ([⟨.punctuation, "/", ⟨0, 1⟩, []⟩, ⟨.identifier, "a", ⟨2, 3⟩, []⟩,
        ⟨.pathSeparator, "::", ⟨8, 10⟩, []⟩, ⟨.string, "c", ⟨10, 13⟩, [11, 12]⟩] ++
        [Token.endOfInput (.ofString "/ a// b\n::\"c\" //")]) := by cbv
  obtain ⟨spelt, hread, hoccupies, -, hleaves⟩ := tokens_leave_only_trivia htokens
  obtain rfl := List.append_cancel_right hread
  exact ⟨_, htokens, rfl, hoccupies, hleaves⟩

end Group

end TextTemplate
