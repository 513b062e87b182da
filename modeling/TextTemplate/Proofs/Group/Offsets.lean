import TextTemplate.Proofs.Group.AngleBodies
import TextTemplate.Proofs.Group.Layout

/-!
# Offsets of literals

A string token has an index for each character of its value, and one for the end of its content.
`Delimiters.Encloses` says what these indices are for one literal, whichever way it is delimited:
they ascend from behind the opening delimiter to the closing one, and where nothing is decoded they
are the indices of the characters themselves.
-/

namespace TextTemplate

namespace Group

/-- How a literal is delimited in a text. -/
inductive Delimiters where
  | quotes
  | raw (hashes : Nat)
  | angles
deriving DecidableEq, Repr

namespace Delimiters

/-- The characters in front of the content. -/
def opening : Delimiters → List Char
  | quotes => ['"']
  | raw hashes => 'r' :: (List.replicate hashes '#' ++ ['"'])
  | angles => ['<', '<']

/-- The characters behind the content. -/
def closing : Delimiters → List Char
  | quotes => ['"']
  | raw hashes => Raw.terminator hashes
  | angles => ['>', '>']

theorem length_opening_pos (delimiters : Delimiters) : 0 < delimiters.opening.length := by
  cases delimiters <;> simp [opening]

theorem length_closing_pos (delimiters : Delimiters) : 0 < delimiters.closing.length := by
  cases delimiters <;> simp [closing, Raw.terminator]

/-- The content is spelt between the delimiters, from the index on. -/
structure Encloses (delimiters : Delimiters) (index : Nat) (spelt : List Char)
    (content : Content) : Prop where
  close_eq : content.close = index + spelt.length
  placed : content.PlacedIn index content.close 0
  verbatim : delimiters ≠ quotes → content = .verbatim index spelt

end Delimiters

/-! ### Literals that are not decoded -/

theorem Content.offsets_verbatim (index : Nat) (body : List Char) :
    (verbatim index body).offsets = List.range' index (body.length + 1) := by
  rw [offsets, verbatim, List.zipIdx_map_snd, List.range'_concat, Nat.one_mul]

/-- Each offset is the index of its character in the text. -/
theorem Content.exists_offset_verbatim {body : List Char} {k : Nat} {c : Char}
    (h : body[k]? = some c) (front later : List Char) :
    ∃ offset : Nat, (verbatim front.length body).offsets[k]? = some offset ∧
      (front ++ body ++ later)[offset]? = some c := by
  obtain ⟨hk, -⟩ := List.getElem?_eq_some_iff.1 h
  refine ⟨front.length + k, ?_, ?_⟩
  · rw [offsets_verbatim, List.getElem?_range' (Nat.lt_succ_of_lt hk), Nat.one_mul]
  · rw [List.append_assoc, List.getElem?_append_right (Nat.le_add_right _ _),
      Nat.add_sub_cancel_left, List.getElem?_append_left hk, h]

theorem Delimiters.encloses_verbatim (delimiters : Delimiters) (index : Nat) (body : List Char) :
    delimiters.Encloses index body (.verbatim index body) := by
  refine ⟨rfl, ⟨?_, ?_, Nat.le_refl _⟩, fun _ => rfl⟩
  · rw [Content.offsets_verbatim]
    exact List.pairwise_lt_range' 1
  · intro offset hm
    rw [Content.offsets_verbatim] at hm
    exact (List.mem_range'_1.1 hm).1

/-- The offsets lie between the opening delimiter and the end of the closing one. -/
theorem Delimiters.Encloses.lt_and_lt {delimiters : Delimiters} {index : Nat} {spelt : List Char}
    {content : Content}
    (h : delimiters.Encloses (index + delimiters.opening.length) spelt content) :
    ∀ offset ∈ content.offsets,
      index < offset ∧ offset < content.close + delimiters.closing.length := by
  intro offset hm
  have hopen := delimiters.length_opening_pos
  have hclosing := delimiters.length_closing_pos
  have hle := h.placed.lower_le offset hm
  have hge := h.placed.offset_le offset hm
  omega

/-- A raw literal stands for the characters up to its terminator. -/
theorem Raw.exists_of_read {hashes start index : Nat} {text : List Char} {content : Content}
    (h : read hashes start index text = .ok content) : ∃ body later,
      text = body ++ terminator hashes ++ later ∧ content = .verbatim index body := by
  induction text generalizing index content with
  | nil => cases h
  | cons c rest ih =>
    rw [read] at h
    split at h
    · next hc =>
      obtain ⟨rfl, ht⟩ := hc
      cases h
      exact ⟨[], rest.drop hashes, by simp [terminator, ← ht], rfl⟩
    · obtain ⟨content, hr, rfl⟩ := Except.map_eq_ok_iff.1 h
      obtain ⟨body, later, rfl, rfl⟩ := ih hr
      exact ⟨c :: body, later, rfl, (Content.verbatim_cons index c body).symm⟩

/-! ### The offsets of a token -/

namespace Token

variable {index : Nat} {c : Char} {text : List Char} {token : Token}

theorem kind_plain_ne_string (index : Nat) (c : Char) (text : List Char) :
    (plain index c text).kind ≠ .string := by
  unfold plain
  split
  · simp [verbatim]
  · split
    · simp [verbatim]
    · exact Kind.ofCharacter_ne_string c

/-- A string token is read from a literal, in whichever way that is delimited. -/
theorem exists_delimiters (h : read index c text = .ok token) (hk : token.kind = .string) :
    ∃ (delimiters : Delimiters) (spelt later : List Char) (content : Content),
      c :: text = delimiters.opening ++ spelt ++ delimiters.closing ++ later ∧
      delimiters.Encloses (index + delimiters.opening.length) spelt content ∧
      token = ofContent index delimiters.closing.length content := by
  by_cases hl : OpensLiteral c text
  · rcases hl with ⟨hashes, ho⟩ | rfl | ⟨rfl, ha⟩
    · obtain ⟨rfl, text, rfl⟩ := Raw.exists_of_opening? ho
      rw [read_hashes] at h
      obtain ⟨content, hr, rfl⟩ := Except.map_eq_ok_iff.1 h
      obtain ⟨body, later, rfl, rfl⟩ := Raw.exists_of_read hr
      have hopening : index + (Delimiters.raw hashes).opening.length = index + hashes + 2 := by
        simp [Delimiters.opening, Nat.add_assoc]
      refine ⟨.raw hashes, body, later, .verbatim (index + hashes + 2) body,
        by simp [Delimiters.opening, Delimiters.closing], ?_, ?_⟩
      · rw [hopening]
        exact Delimiters.encloses_verbatim _ _ _
      · simp [Delimiters.closing, Raw.terminator]
    · rw [read_quote] at h
      obtain ⟨content, hr, rfl⟩ := Except.map_eq_ok_iff.1 h
      obtain ⟨spelt, later, rfl, hclose, -⟩ := Quoted.isClosedBy index (index + 1) text content hr
      -- decoding keeps the order of the indices, which is all that is known of them here
      have hplaced := Quoted.placesFaults_read (spelt ++ ['"'] ++ later) (Nat.lt_succ_self index)
      rw [hr] at hplaced
      exact ⟨.quotes, spelt, later, content, rfl,
        ⟨hclose, ⟨hplaced.ascending, hplaced.lower_le, Nat.le_refl _⟩, fun hne => absurd rfl hne⟩,
        rfl⟩
    · obtain ⟨text, rfl⟩ := List.head?_eq_some_iff.1 ha
      rw [read_angle] at h
      obtain ⟨content, hr, rfl⟩ := Except.map_eq_ok_iff.1 h
      obtain ⟨body, hbody, rfl⟩ := (Angle.read_eq_ok_iff _ _).1 hr
      obtain ⟨later, rfl⟩ := hbody.stands
      exact ⟨.angles, body, later, _, by simp [Delimiters.opening, Delimiters.closing],
        Delimiters.encloses_verbatim _ _ _, rfl⟩
  · rw [read_eq_plain hl] at h
    cases h
    exact absurd hk (kind_plain_ne_string index c text)

end Token

/-- The token at the end is the only one that is not read from the text. -/
theorem mem_read_of_tokenize {source : Text.Source} {tokens : List Token} {token : Token}
    (h : tokenize source = .ok tokens) (hm : token ∈ tokens) (hk : token.kind ≠ .endOfInput) :
    token ∈ (Lexing.read 0 source.text).tokens := by
  obtain ⟨spelt, ht, rfl⟩ := Except.map_eq_ok_iff.1 h
  obtain ⟨hread, -⟩ := tokens_eq_ok_iff.1 ht
  rcases List.mem_append.1 hm with hm | hm
  · rwa [hread]
  · rw [List.mem_singleton.1 hm] at hk
    exact absurd rfl hk

/-- **Offsets point into the literal.**  The string tokens of a text have an index for each
character of their value and one more, these ascend strictly inside the token, and the last is that
of the closing delimiter.  Where nothing is decoded, the character at each index is that of the
value. -/
theorem offsets_point_into_the_literal (source : Text.Source) :
    (∀ tokens, tokenize source = .ok tokens → ∀ token ∈ tokens, token.kind = .string →
      token ∈ (Lexing.read 0 source.text).tokens) ∧
    ∀ token ∈ (Lexing.read 0 source.text).tokens, token.kind = .string →
      token.offsets.length = token.value.toList.length + 1 ∧
      token.offsets.Pairwise (· < ·) ∧
      (∀ offset ∈ token.offsets, token.extent.start < offset ∧ offset < token.extent.stop) ∧
      ∃ (delimiters : Delimiters) (before spelt later : List Char),
        source.text = before ++ delimiters.opening ++ spelt ++ delimiters.closing ++ later ∧
        token.extent = ⟨before.length,
          (before ++ delimiters.opening ++ spelt ++ delimiters.closing).length⟩ ∧
        token.offsets.getLast? = some (before ++ delimiters.opening ++ spelt).length ∧
        (delimiters ≠ .quotes → token.value = String.ofList spelt ∧
          ∀ (k : Nat) (c : Char), token.value.toList[k]? = some c →
            ∃ offset : Nat, token.offsets[k]? = some offset ∧ source.text[offset]? = some c) := by
  constructor
  · intro tokens h token hm hk
    exact mem_read_of_tokenize h hm (by simp [hk])
  · intro token hm hk
    obtain ⟨before, c, rest, htext, -, hread⟩ := Lexing.exists_read_of_mem hm
    obtain ⟨delimiters, spelt, later, content, hliteral, henclosed, rfl⟩ :=
      Token.exists_delimiters hread hk
    rw [Nat.zero_add] at henclosed ⊢
    have hclose := henclosed.close_eq
    have hsource : source.text =
        before ++ delimiters.opening ++ spelt ++ delimiters.closing ++ later := by
      rw [htext, hliteral]
      simp
    refine ⟨?_, henclosed.placed.ascending, henclosed.lt_and_lt, delimiters, before, spelt, later,
      hsource, ?_, ?_, ?_⟩
    · simp [Token.ofContent, Content.offsets, Content.value]
    · simp only [Token.ofContent, hclose, List.length_append]
    · simp [Token.ofContent, Content.offsets, hclose, Nat.add_assoc]
    · intro hne
      have hverbatim := henclosed.verbatim hne
      rw [← List.length_append] at hverbatim
      have hvalue : (Token.ofContent before.length delimiters.closing.length content).value =
          String.ofList spelt := by
        rw [Token.ofContent, hverbatim, Content.value_verbatim]
      refine ⟨hvalue, fun k c hc => ?_⟩
      rw [hvalue, String.toList_ofList] at hc
      rw [hsource, List.append_assoc _ _ later, Token.ofContent, hverbatim]
      exact Content.exists_offset_verbatim hc _ _

theorem offsets_point_into_the_literal_of_raw_quote :
    ∃ token last, tokenize (.ofString "(r#\"a\"b\"#)") = .ok [⟨.leftParen, "(", ⟨0, 1⟩, []⟩, token,
        ⟨.rightParen, ")", ⟨9, 10⟩, []⟩, last] ∧
      token.offsets = [4, 5, 6, 7] ∧
      ∀ offset ∈ token.offsets, token.extent.start < offset ∧ offset < token.extent.stop := by
  have htokens : tokenize (.ofString "(r#\"a\"b\"#)") = .ok [⟨.leftParen, "(", ⟨0, 1⟩, []⟩,
      ⟨.string, "a\"b", ⟨1, 9⟩, [4, 5, 6, 7]⟩, ⟨.rightParen, ")", ⟨9, 10⟩, []⟩,
      Token.endOfInput (.ofString "(r#\"a\"b\"#)")] := by cbv
  obtain ⟨hmem, hoffsets⟩ := offsets_point_into_the_literal (.ofString "(r#\"a\"b\"#)")
  have hm := hmem _ htokens ⟨.string, "a\"b", ⟨1, 9⟩, [4, 5, 6, 7]⟩ (by simp) rfl
  exact ⟨_, _, htokens, rfl, (hoffsets _ hm rfl).2.2.1⟩

end Group

end TextTemplate
