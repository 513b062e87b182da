import TextTemplate.Proofs.Group.QuotedLiterals

/-!
# Where tokens end

Reading a token looks beyond its last character, but not far: a literal ends with its closing
delimiter, whatever follows (`IsClosedBy`), and any other token ends where a blank follows.

* `Token.read_append`: a token that ends in the front of a text is the same before any other rest,
  as long as the rest begins with a blank;
* `Token.stop_le_of_read`: a token does not end in a rest of blanks and braces.
-/

namespace TextTemplate

namespace Group

/-- The text is empty, or begins with a blank. -/
def StartsBlank (text : List Char) : Prop := ∀ c, text.head? = some c → Text.isBlank c = true

theorem StartsBlank.head?_ne {text : List Char} {c : Char} (h : StartsBlank text)
    (hc : Text.isBlank c = false) : text.head? ≠ some c := by
  intro ht
  rw [h c ht] at hc
  cases hc

theorem StartsBlank.endsWord {text : List Char} (h : StartsBlank text) : EndsWord text := by
  intro c hc
  refine ⟨isIdentifierPart_eq_false_of_isBlank (h c hc), ?_, ?_⟩
  · rintro rfl
    exact h.head?_ne (by decide) hc
  · rintro rfl
    exact h.head?_ne (by decide) hc

theorem exists_append_of_length_le {front later text rest : List Char}
    (h : front ++ later = text ++ rest) (hl : front.length ≤ text.length) :
    ∃ more, text = front ++ more := by
  have hp : front <+: text ++ rest := ⟨later, h⟩
  obtain ⟨more, rfl⟩ := List.prefix_of_prefix_length_le hp (List.prefix_append text rest) hl
  exact ⟨more, rfl⟩

/-- A front that ends with a delimiter ends before a rest without characters of the delimiter. -/
theorem length_le_of_append_eq {front closing later text rest : List Char}
    (h : front ++ closing ++ later = text ++ rest) (hne : closing ≠ [])
    (hc : ∀ c ∈ closing, c ∉ rest) : (front ++ closing).length ≤ text.length := by
  rcases List.append_eq_append_iff.1 h with ⟨_, rfl, -⟩ | ⟨excess, ho, rfl⟩
  · simp
  · by_cases hexcess : excess = []
    · simp [ho, hexcess]
    · -- the last character of the delimiter is in the rest
      have hlast : closing.getLast hne = excess.getLast hexcess := by
        rw [← List.getLast_append_of_ne_nil (l := front) (by simp [hne]) hne]
        simp only [ho, List.getLast_append_of_ne_nil _ hexcess]
      have hm : closing.getLast hne ∈ excess ++ later :=
        List.mem_append_left _ (hlast ▸ List.getLast_mem hexcess)
      exact absurd hm (hc _ (List.getLast_mem hne))

/-- Where a front ends is decided in it, if it ends there. -/
theorem takeWhile_append_of_length_lt {p : Char → Bool} {text rest : List Char}
    (h : ((text ++ rest).takeWhile p).length < text.length) (other : List Char) :
    (text ++ other).takeWhile p = (text ++ rest).takeWhile p := by
  rw [List.takeWhile_append] at h
  rw [List.takeWhile_append, List.takeWhile_append]
  split at h
  · rw [List.length_append] at h
    omega
  · next hne => rw [if_neg hne, if_neg hne]

theorem takeWhile_append_of_length_le {p : Char → Bool} {text rest other : List Char}
    (h : ((text ++ rest).takeWhile p).length ≤ text.length)
    (ho : ∀ c, other.head? = some c → p c = false) :
    (text ++ other).takeWhile p = (text ++ rest).takeWhile p := by
  rcases Nat.lt_or_eq_of_le h with hlt | heq
  · exact takeWhile_append_of_length_lt hlt other
  · have htext : (text ++ rest).takeWhile p = text :=
      (List.prefix_of_prefix_length_le (List.takeWhile_prefix p) (List.prefix_append text rest)
        h).eq_of_length heq
    have hall : ∀ c ∈ text, p c = true := by
      rw [← htext]
      exact List.all_eq_true.1 List.all_takeWhile
    rw [htext, List.takeWhile_append_of_pos hall]
    cases other with
    | nil => simp
    | cons d other => simp [ho d rfl]

/-! ### Literals -/

/-- What is read stands at the front of the text, up to a closing delimiter, and depends on nothing
behind the delimiter. -/
def IsClosedBy (closing : List Char) (index : Nat) (read : List Char → Except Fault Content)
    (text : List Char) : Prop :=
  ∀ content, read text = .ok content → ∃ spelt later, text = spelt ++ closing ++ later ∧
    content.close = index + spelt.length ∧ ∀ other, read (spelt ++ closing ++ other) = .ok content

namespace Quoted

/-- A quoted literal ends with its closing quote, whatever follows its encoding. -/
theorem isClosedBy (start index : Nat) (text : List Char) :
    IsClosedBy ['"'] index (read start index) text := by
  intro content h
  obtain ⟨spelt, later, rfl, he, hclose⟩ := (read_eq_ok_iff start index).1 h
  refine ⟨spelt, later, by simp, hclose, fun other => ?_⟩
  rw [List.append_assoc, List.singleton_append, he.read, ← hclose]

end Quoted

theorem Raw.isClosedBy (hashes start index : Nat) (text : List Char) :
    IsClosedBy (terminator hashes) index (read hashes start index) text := by
  induction text generalizing index with
  | nil =>
    intro content h
    cases h
  | cons c rest ih =>
    intro content h
    rw [read] at h
    split at h
    · next hc =>
      obtain ⟨rfl, ht⟩ := hc
      cases h
      refine ⟨[], rest.drop hashes, ?_, rfl, fun other => ?_⟩
      · simp [terminator, ← ht]
      · simp [terminator, read]
    · next hc =>
      obtain ⟨content, hr, rfl⟩ := Except.map_eq_ok_iff.1 h
      obtain ⟨spelt, later, rfl, hclose, ho⟩ := ih (index + 1) content hr
      refine ⟨c :: spelt, later, rfl, ?_, fun other => ?_⟩
      · simp only [Content.cons, List.length_cons, hclose]
        omega
      · -- the number signs that are tested stand before the end of the terminator
        have hlen : hashes ≤ (spelt ++ terminator hashes).length := by
          simp only [terminator, List.length_append, List.length_cons, List.length_replicate]
          omega
        rw [List.take_append_of_le_length hlen] at hc
        rw [List.cons_append, List.cons_append, read, List.take_append_of_le_length hlen,
          if_neg hc, ho]
        rfl

theorem Angle.isClosedBy (start : Nat) (inExpression : Bool) (index : Nat) (text : List Char) :
    IsClosedBy ['>', '>'] index (read start inExpression index) text := by
  induction text generalizing inExpression index with
  | nil =>
    intro content h
    cases h
  | cons c rest ih =>
    intro content h
    rw [read] at h
    split at h
    · next hc =>
      obtain ⟨rfl, rfl, ht⟩ := hc
      cases h
      cases rest with
      | nil => cases ht
      | cons d rest =>
        obtain rfl : d = '>' := Option.some.inj ht
        refine ⟨[], rest, rfl, rfl, fun other => ?_⟩
        simp [read]
    · next hc =>
      obtain ⟨content, hr, rfl⟩ := Except.map_eq_ok_iff.1 h
      obtain ⟨spelt, later, rfl, hclose, ho⟩ := ih _ (index + 1) content hr
      refine ⟨c :: spelt, later, rfl, ?_, fun other => ?_⟩
      · simp only [Content.cons, List.length_cons, hclose]
        omega
      · have hhead : (spelt ++ ['>', '>'] ++ other).head? =
            (spelt ++ ['>', '>'] ++ later).head? := by
          cases spelt <;> rfl
        rw [← hhead] at hc
        rw [List.cons_append, List.cons_append, read, if_neg hc]
        dsimp only
        rw [ho]
        rfl

theorem Raw.exists_of_opening? {c : Char} {text : List Char} {hashes : Nat}
    (h : opening? (c :: text) = some hashes) :
    c = 'r' ∧ ∃ later, text = List.replicate hashes '#' ++ '"' :: later := by
  unfold opening? at h
  split at h
  · next rest heq =>
    obtain ⟨rfl, rfl⟩ := List.cons.inj heq
    dsimp only at h
    split at h
    · next hq =>
      obtain rfl := Option.some.inj h
      obtain ⟨later, hlater⟩ := exists_eq_takeWhile_append hq
      have hsigns : ∀ d ∈ text.takeWhile (· == '#'), d = '#' := fun d hd =>
        eq_of_beq (List.all_eq_true.1 List.all_takeWhile d hd)
      exact ⟨rfl, later, List.eq_replicate_of_mem hsigns ▸ hlater⟩
    · cases h
  · cases h

/-- An opening delimiter does not reach a blank. -/
theorem Raw.opening?_append {c : Char} {text other : List Char} {hashes : Nat}
    (h : opening? (c :: (text ++ other)) = some hashes) (hother : StartsBlank other)
    (rest : List Char) : opening? (c :: (text ++ rest)) = some hashes := by
  obtain ⟨rfl, later, ht⟩ := Raw.exists_of_opening? h
  have hopen : text ++ other = List.replicate hashes '#' ++ ['"'] ++ later := by simpa using ht
  rcases List.append_eq_append_iff.1 hopen with ⟨excess, hexcess, rfl⟩ | ⟨more, rfl, -⟩
  · cases excess with
    | nil =>
      rw [List.append_nil] at hexcess
      simp [← hexcess, Raw.opening?_replicate]
    | cons d excess =>
      -- the blank would be one of the characters of the delimiter
      have hd := hother d rfl
      have hm : d ∈ List.replicate hashes '#' ++ ['"'] := by simp [hexcess]
      have hmark : d = '#' ∨ d = '"' := by
        rcases List.mem_append.1 hm with hm | hm
        · exact .inl (List.eq_of_mem_replicate hm)
        · exact .inr (List.mem_singleton.1 hm)
      rcases hmark with rfl | rfl <;> exact absurd hd (by decide)
  · simp [Raw.opening?_replicate]

/-! ### Tokens -/

namespace Token

variable {index : Nat} {c : Char} {text rest other : List Char} {token : Token}

/-- The characters of closing delimiters. -/
def closingMarks : List Char := ['"', '#', '>']

theorem exists_of_isClosedBy {lower : Nat} {closing : List Char} (opened : List Char)
    {read : List Char → Except Fault Content} (hc : IsClosedBy closing lower read text)
    (hl : lower = index + 1 + opened.length)
    (h : (read text).map (ofContent index closing.length) = .ok token) :
    ∃ spelt later, text = spelt ++ closing ++ later ∧
      token.extent.stop = index + 1 + (opened ++ spelt ++ closing).length ∧
      ∀ other, (read (spelt ++ closing ++ other)).map (ofContent index closing.length) =
        .ok token := by
  obtain ⟨content, hr, rfl⟩ := Except.map_eq_ok_iff.1 h
  obtain ⟨spelt, later, ht, hclose, ho⟩ := hc content hr
  refine ⟨spelt, later, ht, ?_, fun other => ?_⟩
  · simp only [ofContent, hclose, hl, List.length_append]
    omega
  · rw [ho]
    rfl

/-- The characters start a literal. -/
def OpensLiteral (c : Char) (text : List Char) : Prop :=
  (∃ hashes, Raw.opening? (c :: text) = some hashes) ∨ c = '"' ∨ c = '<' ∧ text.head? = some '<'

/-- A literal ends with its closing delimiter, whatever follows. -/
theorem exists_closing (h : read index c text = .ok token) (hl : OpensLiteral c text) :
    ∃ front closing later, text = front ++ closing ++ later ∧ closing ≠ [] ∧
      (∀ d ∈ closing, d ∈ closingMarks) ∧
      token.extent.stop = index + 1 + (front ++ closing).length ∧
      ∀ other, read index c (front ++ closing ++ other) = .ok token := by
  rcases hl with ⟨hashes, ho⟩ | rfl | ⟨rfl, ha⟩
  · obtain ⟨rfl, later, rfl⟩ := Raw.exists_of_opening? ho
    have hopened : index + hashes + 2 =
        index + 1 + (List.replicate hashes '#' ++ ['"']).length := by
      simp only [List.length_append, List.length_replicate, List.length_singleton]
      omega
    have hclosing : hashes + 1 = (Raw.terminator hashes).length := by simp [Raw.terminator]
    rw [read_hashes, hclosing] at h
    obtain ⟨spelt, later, rfl, hstop, hother⟩ :=
      exists_of_isClosedBy _ (Raw.isClosedBy hashes index _ later) hopened h
    refine ⟨_, _, later, by simp, by simp [Raw.terminator], ?_, hstop, fun other => ?_⟩
    · intro d hd
      rcases List.mem_cons.1 hd with rfl | hd
      · decide
      · rw [List.eq_of_mem_replicate hd]
        decide
    · have htext : List.replicate hashes '#' ++ ['"'] ++ spelt ++ Raw.terminator hashes ++ other =
          List.replicate hashes '#' ++ '"' :: (spelt ++ Raw.terminator hashes ++ other) := by
        simp
      rw [htext, read_hashes, hclosing, hother]
  · obtain ⟨spelt, later, rfl, hstop, hother⟩ :=
      exists_of_isClosedBy [] (Quoted.isClosedBy index _ text) rfl h
    exact ⟨spelt, ['"'], later, rfl, by simp, by simp [closingMarks], hstop, hother⟩
  · obtain ⟨text, rfl⟩ := List.head?_eq_some_iff.1 ha
    obtain ⟨spelt, later, rfl, hstop, hother⟩ :=
      exists_of_isClosedBy ['<'] (Angle.isClosedBy index false _ text) rfl h
    exact ⟨'<' :: spelt, ['>', '>'], later, rfl, by simp, by simp [closingMarks], hstop, hother⟩

/-- The token that starts with the character `c`, where no literal starts. -/
def plain (index : Nat) (c : Char) (text : List Char) : Token :=
  if Text.isIdentifierStart c then
    verbatim .identifier index (c :: text.takeWhile Text.isIdentifierPart)
  else if c = ':' ∧ text.head? = some ':' then verbatim .pathSeparator index [':', ':']
  else verbatim (Kind.ofCharacter c) index [c]

theorem read_eq_plain (h : ¬OpensLiteral c text) :
    read index c text = .ok (plain index c text) := by
  simp only [OpensLiteral, not_or, not_exists, ← Option.eq_none_iff_forall_ne_some] at h
  obtain ⟨ho, hq, ha⟩ := h
  rw [read, ho, plain]
  dsimp only
  rw [if_neg hq, if_neg ha]
  split
  · rfl
  · split <;> rfl

/-- A second character that is no blank stands in the front, if the rest begins with a blank. -/
theorem head?_append_of_startsBlank {d : Char} (hother : StartsBlank other)
    (hd : Text.isBlank d = false) (h : (text ++ other).head? = some d) (rest : List Char) :
    (text ++ rest).head? = some d := by
  cases text with
  | nil => exact absurd h (hother.head?_ne hd)
  | cons e text => exact h

theorem not_opensLiteral_append (h : ¬OpensLiteral c (text ++ rest)) (hother : StartsBlank other) :
    ¬OpensLiteral c (text ++ other) := by
  rintro (⟨hashes, ho⟩ | hq | ⟨hc, ha⟩)
  · exact h (.inl ⟨hashes, Raw.opening?_append ho hother rest⟩)
  · exact h (.inr (.inl hq))
  · exact h (.inr (.inr ⟨hc, head?_append_of_startsBlank hother (by decide) ha rest⟩))

theorem plain_append (hstop : (plain index c (text ++ rest)).extent.stop ≤ index + 1 + text.length)
    (hother : StartsBlank other) :
    plain index c (text ++ other) = plain index c (text ++ rest) := by
  unfold plain at hstop ⊢
  split at hstop
  · next hi =>
    have hle : ((text ++ rest).takeWhile Text.isIdentifierPart).length ≤ text.length := by
      simp only [verbatim, List.length_cons] at hstop
      omega
    rw [if_pos hi, if_pos hi, takeWhile_append_of_length_le hle fun d hd =>
      isIdentifierPart_eq_false_of_isBlank (hother d hd)]
  · next hi =>
    rw [if_neg hi, if_neg hi]
    split at hstop
    · next hp =>
      -- the second colon stands in the front, since the token ends there
      have hne : text ≠ [] := by
        rintro rfl
        simp [verbatim] at hstop
      obtain ⟨d, text, rfl⟩ := List.exists_cons_of_ne_nil hne
      rfl
    · next hp =>
      rw [if_neg fun hc => hp ⟨hc.1, head?_append_of_startsBlank hother (by decide) hc.2 rest⟩,
        if_neg hp]

theorem stop_plain_le (hr : ∀ d ∈ rest, Text.isIdentifierPart d = false ∧ d ≠ ':') :
    (plain index c (text ++ rest)).extent.stop ≤ index + 1 + text.length := by
  unfold plain
  split
  · have hnone : rest.takeWhile Text.isIdentifierPart = [] := by
      cases rest with
      | nil => rfl
      | cons d rest => simp [(hr d List.mem_cons_self).1]
    have hle : ((text ++ rest).takeWhile Text.isIdentifierPart).length ≤ text.length := by
      rw [List.takeWhile_append]
      split
      · simp [hnone]
      · exact (List.takeWhile_sublist _).length_le
    simp only [verbatim, List.length_cons]
    omega
  · split
    · next hp =>
      have hne : text ≠ [] := by
        rintro rfl
        exact (hr ':' (List.mem_of_mem_head? hp.2)).2 rfl
      have := List.length_pos_iff.2 hne
      simp only [verbatim, List.length_cons, List.length_nil]
      omega
    · simp [verbatim]

/-- **A token that ends in the front of a text is the same before any other rest**, as long as the
rest does not go on with it. -/
theorem read_append (h : read index c (text ++ rest) = .ok token)
    (hstop : token.extent.stop ≤ index + 1 + text.length) (hother : StartsBlank other) :
    read index c (text ++ other) = .ok token := by
  by_cases hl : OpensLiteral c (text ++ rest)
  · obtain ⟨front, closing, later, ht, -, -, hend, hsame⟩ := exists_closing h hl
    obtain ⟨more, rfl⟩ := exists_append_of_length_le ht.symm (by omega)
    rw [List.append_assoc, hsame]
  · rw [read_eq_plain hl] at h
    cases h
    rw [read_eq_plain (not_opensLiteral_append hl hother), plain_append hstop hother]

/-- A token does not end in a rest of characters that neither continue a word nor close a
literal. -/
theorem stop_le_of_read (h : read index c (text ++ rest) = .ok token)
    (hr : ∀ d ∈ rest, Text.isIdentifierPart d = false ∧ d ∉ closingMarks ∧ d ≠ ':') :
    token.extent.stop ≤ index + 1 + text.length := by
  by_cases hl : OpensLiteral c (text ++ rest)
  · obtain ⟨front, closing, later, ht, hne, hmarks, hend, -⟩ := exists_closing h hl
    have hlen := length_le_of_append_eq ht.symm hne fun d hd hm => (hr d hm).2.1 (hmarks d hd)
    omega
  · rw [read_eq_plain hl] at h
    cases h
    exact stop_plain_le fun d hd => ⟨(hr d hd).1, (hr d hd).2.2⟩

end Token

end Group

end TextTemplate
