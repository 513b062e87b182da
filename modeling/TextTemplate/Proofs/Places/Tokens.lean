import TextTemplate.Group.Tokens
import TextTemplate.Proofs.Places.Body

/-!
# Places of tokens

Reading the tokens of a text places them one behind the other, and places what is wrong with them
(`Group.placesFaults_tokens`).  The decoded characters of a literal keep their order: their indices
ascend (`Content.PlacedIn`), across escapes that take many characters and line continuations that
stand for none, since every spelling takes at least one character and ends in the text
(`Quoted.fits_readSpelling`).
-/

namespace TextTemplate

namespace Group

/-- A front of some width and what is behind it make up the text. -/
theorem add_length_drop {index width : Nat} {c : Char} {rest : List Char} (hw : 1 ≤ width)
    (hl : width ≤ rest.length + 1) :
    index + width + (rest.drop (width - 1)).length = index + (c :: rest).length := by
  simp only [List.length_drop, List.length_cons]
  omega

/-! ### Literals -/

/-- The indices of the content ascend from `lower` on, and its closing delimiter, which has the
given length, does not go beyond `upper`. -/
structure Content.PlacedIn (lower upper closeLength : Nat) (content : Content) : Prop where
  ascending : content.offsets.Pairwise (· < ·)
  lower_le : ∀ offset ∈ content.offsets, lower ≤ offset
  close_le : content.close + closeLength ≤ upper

namespace Content

variable {lower lower' upper closeLength index : Nat} {content : Content}

theorem placedIn_empty (h : index + closeLength ≤ upper) :
    PlacedIn index upper closeLength ⟨[], index⟩ := by
  refine ⟨List.pairwise_singleton _ _, ?_, h⟩
  intro offset hm
  exact Nat.le_of_eq (List.mem_singleton.1 hm).symm

theorem PlacedIn.mono (h : content.PlacedIn lower upper closeLength) (hl : lower' ≤ lower) :
    content.PlacedIn lower' upper closeLength :=
  ⟨h.ascending, fun offset hm => Nat.le_trans hl (h.lower_le offset hm), h.close_le⟩

theorem PlacedIn.cons (c : Char) (h : content.PlacedIn lower upper closeLength)
    (hi : index < lower) : (content.cons c index).PlacedIn index upper closeLength := by
  refine ⟨List.pairwise_cons.2 ⟨?_, h.ascending⟩, ?_, h.close_le⟩
  · intro offset hm
    exact Nat.lt_of_lt_of_le hi (h.lower_le offset hm)
  · intro offset hm
    rcases List.mem_cons.1 hm with rfl | hm
    · exact Nat.le_refl _
    · exact Nat.le_of_lt (Nat.lt_of_lt_of_le hi (h.lower_le offset hm))

/-- No index lies behind the closing delimiter. -/
theorem PlacedIn.offset_le (h : content.PlacedIn lower upper closeLength) :
    ∀ offset ∈ content.offsets, offset ≤ content.close := by
  intro offset hm
  have hlast := (List.pairwise_append.1 h.ascending).2.2
  rcases List.mem_append.1 hm with hm | hm
  · exact Nat.le_of_lt (hlast offset hm _ List.mem_cons_self)
  · exact Nat.le_of_eq (List.mem_singleton.1 hm)

theorem PlacedIn.lower_le_close (h : content.PlacedIn lower upper closeLength) :
    lower ≤ content.close :=
  h.lower_le _ (List.mem_append_right _ List.mem_cons_self)

end Content

namespace Quoted

/-- The number of characters that a spelling takes. -/
def Spelling.width : Spelling → Nat
  | .character _ width | .continuation width => width

/-- What was read, or is to blame, takes at least one character, and not more than there are. -/
def Fits (length : Nat) : Except Misspelling Spelling → Prop
  | .ok spelling => 1 ≤ spelling.width ∧ spelling.width ≤ length
  | .error e => 1 ≤ e.width ∧ e.width ≤ length

theorem fits_readUnicodeEscape (rest : List Char) :
    Fits (rest.length + 2) (readUnicodeEscape rest) := by
  unfold readUnicodeEscape
  dsimp only
  split
  · next h =>
    -- the closing brace stands behind the digits
    obtain ⟨hclose, -⟩ := List.getElem?_eq_some_iff.1 (List.head?_drop.symm.trans h.1.2)
    split
    · simp only [Fits, Spelling.width]
      omega
    · simp only [Fits]
      omega
  · simp only [Fits]
    omega

theorem fits_readByteEscape (rest : List Char) : Fits (rest.length + 2) (readByteEscape rest) := by
  unfold readByteEscape
  split
  · split <;> simp [Fits, Spelling.width]
  · simp only [Fits]
    omega

theorem fits_readEscape (text : List Char) : Fits (text.length + 1) (readEscape text) := by
  unfold readEscape
  split
  · simp [Fits]
  · next e rest =>
    have hle : (rest.takeWhile isContinuationBlank).length ≤ rest.length :=
      (List.takeWhile_sublist _).length_le
    rw [List.length_cons]
    split
    · simp only [Fits, Spelling.width]
      omega
    · split
      · simp only [Fits, Spelling.width]
        omega
      · split
        · exact fits_readByteEscape rest
        · split
          · exact fits_readUnicodeEscape rest
          · simp only [Fits]
            omega

theorem fits_readSpelling (c : Char) (rest : List Char) :
    Fits (rest.length + 1) (readSpelling c rest) := by
  unfold readSpelling
  split
  · exact fits_readEscape rest
  · simp [Fits, Spelling.width]

theorem placesFaults_read {start index : Nat} (text : List Char) (h : start < index) :
    PlacesFaults start (index + text.length) (Content.PlacedIn index (index + text.length) 1)
      (read start index text) := by
  fun_induction read start index text with
  | case1 index => exact ⟨Nat.le_refl _, h, Nat.le_refl _⟩
  | case2 index rest => exact Content.placedIn_empty (by simp)
  | case3 index c rest hq e he =>
    have hf := fits_readSpelling c rest
    simp only [he, Fits] at hf
    refine ⟨Nat.le_of_lt h, ?_, ?_⟩ <;> simp only [List.length_cons] <;> omega
  | case4 index c rest hq d width hs ih =>
    have hf := fits_readSpelling c rest
    simp only [hs, Fits, Spelling.width] at hf
    -- the rest of the text begins right behind the spelling
    rw [add_length_drop hf.1 hf.2] at ih
    exact (ih (by omega)).map fun content hc => hc.cons d (by omega)
  | case5 index c rest hq width hs ih =>
    have hf := fits_readSpelling c rest
    simp only [hs, Fits, Spelling.width] at hf
    rw [add_length_drop hf.1 hf.2] at ih
    exact (ih (by omega)).mono (Nat.le_refl _) (Nat.le_refl _) fun content hc =>
      hc.mono (by omega)

end Quoted

theorem Raw.placesFaults_read {start index : Nat} (hashes : Nat) (text : List Char)
    (h : start < index) :
    PlacesFaults start (index + text.length)
      (Content.PlacedIn index (index + text.length) (hashes + 1))
      (read hashes start index text) := by
  induction text generalizing index with
  | nil => exact ⟨Nat.le_refl _, h, Nat.le_refl _⟩
  | cons c rest ih =>
    rw [read]
    split
    · next hc =>
      have hlen := congrArg List.length hc.2
      simp only [List.length_take, List.length_replicate] at hlen
      exact Content.placedIn_empty (by simp only [List.length_cons]; omega)
    · have hr := ih (Nat.lt_succ_of_lt h)
      have hend : index + 1 + rest.length = index + (c :: rest).length :=
        Nat.succ_add_eq_add_succ index rest.length
      rw [hend] at hr
      exact hr.map fun content hc => hc.cons c (Nat.lt_succ_self _)

theorem Angle.placesFaults_read {start index : Nat} (inExpression : Bool) (text : List Char)
    (h : start + 2 ≤ index) :
    PlacesFaults start (index + text.length) (Content.PlacedIn index (index + text.length) 2)
      (read start inExpression index text) := by
  induction text generalizing index inExpression with
  | nil =>
    refine ⟨Nat.le_refl _, ?_, ?_⟩ <;> simp only [List.length_nil] <;> omega
  | cons c rest ih =>
    rw [read]
    split
    · next hc =>
      have hr : rest ≠ [] := by
        rintro rfl
        simp at hc
      have := List.length_pos_iff.2 hr
      exact Content.placedIn_empty (by simp only [List.length_cons]; omega)
    · dsimp only
      have hr := ih (if c = '<' then true else if c = '>' then false else inExpression)
        (Nat.le_succ_of_le h)
      have hend : index + 1 + rest.length = index + (c :: rest).length :=
        Nat.succ_add_eq_add_succ index rest.length
      rw [hend] at hr
      exact hr.map fun content hc => hc.cons c (Nat.lt_succ_self _)

theorem Raw.lt_length_of_opening? {c : Char} {rest : List Char} {hashes : Nat}
    (h : opening? (c :: rest) = some hashes) : hashes < rest.length := by
  unfold opening? at h
  split at h
  · next later heq =>
    obtain ⟨-, rfl⟩ := List.cons.inj heq
    dsimp only at h
    split at h
    · next hq =>
      obtain rfl := Option.some.inj h
      exact (List.getElem?_eq_some_iff.1 (List.head?_drop.symm.trans hq)).1
    · cases h
  · cases h

/-! ### Tokens -/

/-- The token stands between two indices, and so do the characters of its value; there is an index
for each character of a literal, and for its end. -/
structure Token.PlacedIn (lower upper : Nat) (token : Token) : Prop where
  extent : token.extent.Within lower upper
  ascending : token.offsets.Pairwise (· < ·)
  offset_le : ∀ offset ∈ token.offsets, offset ≤ upper
  length_offsets : token.kind = .string → token.offsets.length = token.value.toList.length + 1

namespace Token

variable {lower lower' upper index : Nat} {token : Token}

theorem PlacedIn.mono (h : token.PlacedIn lower upper) (hl : lower' ≤ lower) :
    token.PlacedIn lower' upper :=
  ⟨h.extent.mono hl (Nat.le_refl _), h.ascending, h.offset_le, h.length_offsets⟩

/-- The token was read from the first index on. -/
def ReadAt (index upper : Nat) (token : Token) : Prop :=
  token.extent.start = index ∧ token.PlacedIn index upper

theorem readAt_verbatim {kind : Kind} {characters : List Char} (hk : kind ≠ .string)
    (hc : characters ≠ []) (hu : index + characters.length ≤ upper) :
    (verbatim kind index characters).ReadAt index upper := by
  refine ⟨rfl, ⟨Nat.le_refl _, ?_, hu⟩, List.Pairwise.nil, by simp [verbatim], fun h => absurd h hk⟩
  have := List.length_pos_iff.2 hc
  simp only [verbatim]
  omega

/-- The token of a literal stands where the literal was read. -/
theorem placesFaults_ofContent {closeLength : Nat} {answer : Except Fault Content}
    (h : PlacesFaults index upper (Content.PlacedIn lower upper closeLength) answer)
    (hi : index < lower) :
    PlacesFaults index upper (ReadAt index upper) (answer.map (ofContent index closeLength)) := by
  refine h.map fun content hc => ?_
  have hl := hc.lower_le_close
  have hu := hc.close_le
  refine ⟨rfl, ⟨Nat.le_refl _, ?_, hu⟩, hc.ascending, ?_, ?_⟩
  · simp only [ofContent]
    omega
  · intro offset hm
    have := hc.offset_le offset hm
    omega
  · intro _
    simp [ofContent, Content.offsets, Content.value]

theorem Kind.ofCharacter_ne_string (c : Char) : Kind.ofCharacter c ≠ .string := by
  unfold Kind.ofCharacter
  split <;> simp

/-- One token is read from its first character on, and stands in the text. -/
theorem placesFaults_read (index : Nat) (c : Char) (rest : List Char) :
    PlacesFaults index (index + (c :: rest).length) (ReadAt index (index + (c :: rest).length))
      (read index c rest) := by
  -- a second character that was tested is there
  have hsecond : ∀ d, rest.head? = some d → 2 ≤ (c :: rest).length := by
    intro d hd
    have hne : rest ≠ [] := by
      rintro rfl
      cases hd
    exact Nat.succ_le_succ (List.length_pos_iff.2 hne)
  unfold read
  split
  · next hashes ho =>
    have hlt := Raw.lt_length_of_opening? ho
    have hopen : index < index + (hashes + 2) := by omega
    have hr := Raw.placesFaults_read hashes (rest.drop (hashes + 2 - 1)) hopen
    rw [add_length_drop (by omega) (by omega)] at hr
    exact placesFaults_ofContent hr hopen
  · split
    · have hle : (rest.takeWhile Text.isIdentifierPart).length ≤ rest.length :=
        (List.takeWhile_sublist _).length_le
      exact readAt_verbatim (by simp) (by simp) (by simp only [List.length_cons]; omega)
    · split
      · have hr := Quoted.placesFaults_read rest (Nat.lt_succ_self index)
        have hend : index + 1 + rest.length = index + (c :: rest).length :=
          Nat.succ_add_eq_add_succ index rest.length
        rw [hend] at hr
        exact placesFaults_ofContent hr (Nat.lt_succ_self index)
      · split
        · next ha =>
          have hr := Angle.placesFaults_read false (rest.drop (2 - 1)) (Nat.le_refl (index + 2))
          rw [add_length_drop (by omega) (hsecond _ ha.2)] at hr
          exact placesFaults_ofContent hr (by omega)
        · split
          · next hp =>
            exact readAt_verbatim (by simp) (by simp) (Nat.add_le_add_left (hsecond _ hp.2) index)
          · exact readAt_verbatim (Kind.ofCharacter_ne_string c) (by simp)
              (Nat.add_le_add_left (Nat.succ_le_succ (Nat.zero_le _)) index)

/-- The tokens stand between two indices, each behind the one before it. -/
def ArePlaced (upper : Nat) : Nat → List Token → Prop
  | _, [] => True
  | lower, token :: rest => token.PlacedIn lower upper ∧ ArePlaced upper token.extent.stop rest

theorem ArePlaced.mono {tokens : List Token} (h : ArePlaced upper lower tokens)
    (hl : lower' ≤ lower) : ArePlaced upper lower' tokens := by
  cases tokens with
  | nil => exact trivial
  | cons token rest => exact ⟨h.1.mono hl, h.2⟩

theorem ArePlaced.placedIn {tokens : List Token} (h : ArePlaced upper lower tokens) :
    ∀ token ∈ tokens, token.PlacedIn lower upper := by
  induction tokens generalizing lower with
  | nil => simp
  | cons first rest ih =>
    obtain ⟨hf, hr⟩ := h
    have hle : lower ≤ first.extent.stop :=
      Nat.le_trans hf.extent.lower_le (Nat.le_of_lt hf.extent.start_lt_stop)
    exact List.forall_mem_cons.2 ⟨hf, ih (hr.mono hle)⟩

end Token

/-! ### The whole text -/

theorem Lexing.arePlaced_read (index : Nat) (text : List Char) :
    Token.ArePlaced (index + text.length) index (read index text).tokens ∧
      ∀ fault, (read index text).fault? = some fault →
        fault.extent.Within index (index + text.length) := by
  induction hn : text.length using Nat.strongRecOn generalizing index text with
  | _ n ih =>
    rw [read]
    split
    · exact ⟨trivial, by simp⟩
    · next c rest hd =>
      have hlen := congrArg List.length hd
      rw [List.length_drop, List.length_cons] at hlen
      have ht := Token.placesFaults_read (index + triviaLength false text) c rest
      have hend : index + triviaLength false text + (c :: rest).length = index + n := by
        rw [List.length_cons]
        omega
      rw [hend] at ht
      dsimp only
      split
      · next fault hf =>
        rw [hf] at ht
        refine ⟨trivial, fun fault' he => ?_⟩
        obtain rfl := Option.some.inj he
        exact Text.Extent.Within.mono ht (by omega) (Nat.le_refl _)
      · next token hr =>
        rw [hr] at ht
        obtain ⟨hstart, hp⟩ := ht
        have hwithin := hp.extent
        have hlt := hwithin.start_lt_stop
        have hle := hwithin.stop_le
        -- reading goes on right behind the token
        have hnext : token.extent.stop + (rest.drop (token.extent.length - 1)).length =
            index + n := by
          simp only [List.length_drop, Text.Extent.length]
          omega
        have hshort : (rest.drop (token.extent.length - 1)).length < n := by
          rw [List.length_drop]
          omega
        obtain ⟨hlater, hfault⟩ := ih _ hshort token.extent.stop _ rfl
        rw [hnext] at hlater hfault
        refine ⟨⟨hp.mono (by omega), hlater⟩, fun fault he => ?_⟩
        exact (hfault fault he).mono (by omega) (Nat.le_refl _)

theorem Nesting.placesFaults_check {lower upper : Nat} {opened tokens : List Token}
    (ho : ∀ token ∈ opened, token.extent.Within lower upper)
    (ht : ∀ token ∈ tokens, token.extent.Within lower upper) :
    PlacesFaults lower upper (fun left => ∀ token ∈ left, token.extent.Within lower upper)
      (check opened tokens) := by
  induction tokens generalizing opened with
  | nil => exact ho
  | cons token rest ih =>
    obtain ⟨hf, hr⟩ := List.forall_mem_cons.1 ht
    unfold check
    split
    · exact ih (List.forall_mem_cons.2 ⟨hf, ho⟩) hr
    · split
      · split
        · next innermost outer =>
          split
          · exact ih (List.forall_mem_cons.1 ho).2 hr
          · exact hf
        · exact hf
      · exact ih ho hr

/-- **The tokens of a text are placed**, one behind the other, and so is what is wrong with them. -/
theorem placesFaults_tokens (source : Text.Source) :
    PlacesFaults 0 source.length (Token.ArePlaced source.length 0) (tokens source) := by
  obtain ⟨hplaced, hfault⟩ := Lexing.arePlaced_read 0 source.text
  rw [Nat.zero_add] at hplaced hfault
  have hopened : ∀ token ∈ ([] : List Token), token.extent.Within 0 source.length := by simp
  have hcheck := Nesting.placesFaults_check hopened fun token hm =>
    (hplaced.placedIn token hm).extent
  unfold tokens
  dsimp only
  split
  · next fault hc =>
    rw [hc] at hcheck
    exact hcheck
  · next fault _ he => exact hfault fault he
  · next innermost outer hc _ =>
    rw [hc] at hcheck
    exact hcheck innermost List.mem_cons_self
  · exact hplaced

end Group

end TextTemplate
