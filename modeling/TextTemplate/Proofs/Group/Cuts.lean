import TextTemplate.Proofs.Places.Shift
import TextTemplate.Proofs.Group.Boundaries

/-!
# Cutting a text between tokens

Where a text is cut between two tokens, all that reading has to know about its front is whether a
comment is open at the cut.  `Lexing.resume` reads on from there.

* `CutInto` says what is read in front of a cut and behind it; the tokens in front do not depend on
  what is behind, as long as that begins with a blank;
* `exists_cutInto`: every text can be cut in this way where no token is cut.
-/

namespace TextTemplate

namespace Group

/-! ### The front of a text -/

/-- The characters are no blank, and not the start of a comment. -/
def StartsToken (c : Char) (rest : List Char) : Prop :=
  Text.isBlank c = false ∧ ¬(c = '/' ∧ rest.head? = some '/')

theorem triviaLength_of_startsToken {c : Char} {rest : List Char} (h : StartsToken c rest) :
    triviaLength false (c :: rest) = 0 := by
  simp [triviaLength, h.1, h.2]

/-- A comment goes on up to the end of the line. -/
theorem triviaLength_append_of_not_mem {line : List Char} (h : '\n' ∉ line) (rest : List Char) :
    triviaLength true (line ++ rest) = line.length + triviaLength true rest := by
  induction line with
  | nil => simp
  | cons c line ih =>
    simp only [List.mem_cons, not_or] at h
    obtain ⟨hne, hline⟩ := h
    have hc : (c != '\n') = true := by simpa using Ne.symm hne
    rw [List.cons_append, triviaLength, if_pos rfl, hc, ih hline, List.length_cons]
    omega

/-- A text is blanks and comments, up to an open comment or a token if there is one. -/
theorem cases_of_text (text : List Char) :
    IsTrivia text ∨
      (∃ gap line, text = gap ++ '/' :: '/' :: line ∧ IsTrivia gap ∧ '\n' ∉ line) ∨
      ∃ gap c rest, text = gap ++ c :: rest ∧ IsTrivia gap ∧ StartsToken c rest := by
  induction hl : text.length using Nat.strongRecOn generalizing text with
  | _ length ih =>
    cases text with
    | nil => exact .inl .nil
    | cons c rest =>
      by_cases hb : Text.isBlank c = true
      · have hshort : rest.length < length := by
          rw [← hl]
          exact Nat.lt_succ_self _
        rcases ih _ hshort rest rfl with
          h | ⟨gap, line, rfl, hg, hn⟩ | ⟨gap, d, later, rfl, hg, ht⟩
        · exact .inl (.blank hb h)
        · exact .inr (.inl ⟨c :: gap, line, rfl, .blank hb hg, hn⟩)
        · exact .inr (.inr ⟨c :: gap, d, later, rfl, .blank hb hg, ht⟩)
      · by_cases hc : c = '/' ∧ rest.head? = some '/'
        · obtain ⟨rfl, hc⟩ := hc
          obtain ⟨rest, rfl⟩ := List.head?_eq_some_iff.1 hc
          cases hcut : Text.cutAt? '\n' rest with
          | none => exact .inr (.inl ⟨[], rest, rfl, .nil, Text.cutAt?_eq_none_iff.1 hcut⟩)
          | some cut =>
            obtain ⟨line, rest⟩ := cut
            obtain ⟨rfl, hn⟩ := Text.cutAt?_eq_some_iff.1 hcut
            have hshort : rest.length < length := by
              rw [← hl]
              simp only [List.length_cons, List.length_append]
              omega
            rcases ih _ hshort rest rfl with
              h | ⟨gap, line', rfl, hg, hn'⟩ | ⟨gap, d, later, rfl, hg, ht⟩
            · exact .inl (.comment hn h)
            · exact .inr (.inl ⟨_, line', by simp, .comment hn hg, hn'⟩)
            · exact .inr (.inr ⟨_, d, later, by simp, .comment hn hg, ht⟩)
        · exact .inr (.inr ⟨[], c, rest, rfl, .nil, by simpa using hb, hc⟩)

/-! ### Reading on -/

namespace Lexing

/-- The tokens behind others. -/
def behind (tokens : List Token) (later : Lexing) : Lexing :=
  ⟨tokens ++ later.tokens, later.fault?⟩

/-- Reads the rest of a text, where `inComment` tells whether a comment is open. -/
def resume (inComment : Bool) (index : Nat) (text : List Char) : Lexing :=
  match text.drop (triviaLength inComment text) with
  | [] => ⟨[], none⟩
  | c :: rest =>
    match Token.read (index + triviaLength inComment text) c rest with
    | .error fault => ⟨[], some fault⟩
    | .ok token =>
      behind [token] (read token.extent.stop (rest.drop (token.extent.length - 1)))

theorem resume_false (index : Nat) (text : List Char) : resume false index text = read index text :=
  (read_eq index text).symm

theorem resume_append {before after : Bool} {gap rest : List Char}
    (h : triviaLength before (gap ++ rest) = gap.length + triviaLength after rest) (index : Nat) :
    resume before index (gap ++ rest) = resume after (index + gap.length) rest := by
  have hd : (gap ++ rest).drop (gap.length + triviaLength after rest) =
      rest.drop (triviaLength after rest) := by
    rw [← List.drop_drop, List.drop_left]
  rw [resume, resume, h, hd, Nat.add_assoc]

theorem read_trivia_append {gap : List Char} (h : IsTrivia gap) (index : Nat) (rest : List Char) :
    read index (gap ++ rest) = read (index + gap.length) rest := by
  rw [← resume_false, ← resume_false, resume_append (triviaLength_append h rest)]

theorem read_of_isTrivia {gap : List Char} (h : IsTrivia gap) (index : Nat) :
    read index gap = ⟨[], none⟩ := by
  have := read_trivia_append h index []
  rw [List.append_nil] at this
  rw [this, read_eq]
  rfl

theorem read_comment_append {gap line : List Char} (h : IsTrivia gap) (hn : '\n' ∉ line)
    (index : Nat) (rest : List Char) : read index (gap ++ '/' :: '/' :: line ++ rest) =
      resume true (index + (gap ++ '/' :: '/' :: line).length) rest := by
  have hb : Text.isBlank '/' = false := by decide
  have hs : ('/' != '\n') = true := by decide
  rw [← resume_false]
  refine resume_append ?_ index
  rw [List.append_assoc, triviaLength_append h, List.cons_append, List.cons_append, triviaLength,
    if_neg Bool.false_ne_true, hb, if_neg Bool.false_ne_true, if_pos ⟨rfl, rfl⟩, triviaLength,
    if_pos rfl, hs, triviaLength_append_of_not_mem hn]
  simp only [List.length_append, List.length_cons]
  omega

theorem read_of_open_comment {gap line : List Char} (h : IsTrivia gap) (hn : '\n' ∉ line)
    (index : Nat) : read index (gap ++ '/' :: '/' :: line) = ⟨[], none⟩ := by
  have := read_comment_append h hn index []
  rw [List.append_nil] at this
  rw [this]
  rfl

/-- The end of the line ends a comment, and is a blank otherwise. -/
theorem resume_newline (inComment : Bool) (index : Nat) (rest : List Char) :
    resume inComment index ('\n' :: rest) = read (index + 1) rest := by
  have htrivia : triviaLength inComment (['\n'] ++ rest) =
      ['\n'].length + triviaLength false rest := by
    cases inComment <;> rfl
  rw [← resume_false, ← List.singleton_append, resume_append htrivia]
  rfl

theorem resume_of_not_mem {text : List Char} (h : '\n' ∉ text) (index : Nat) :
    resume true index text = ⟨[], none⟩ := by
  have := triviaLength_append_of_not_mem h []
  rw [List.append_nil] at this
  rw [resume, this]
  simp [triviaLength]

theorem resume_line {line : List Char} (h : '\n' ∉ line) (index : Nat) (rest : List Char) :
    resume true index (line ++ '\n' :: rest) = read (index + line.length + 1) rest := by
  rw [resume_append (triviaLength_append_of_not_mem h _), resume_newline]

/-! ### Reading one token -/

variable {index : Nat} {c : Char} {rest : List Char}

theorem read_token_append {gap : List Char} (hg : IsTrivia gap) (hc : StartsToken c rest)
    (index : Nat) : read index (gap ++ c :: rest) =
      match Token.read (index + gap.length) c rest with
      | .error fault => ⟨[], some fault⟩
      | .ok token =>
        behind [token] (read token.extent.stop (rest.drop (token.extent.length - 1))) := by
  rw [read_trivia_append hg, ← resume_false, resume, triviaLength_of_startsToken hc]
  rfl

theorem exists_token_of_read {gap : List Char} {tokens : List Token} (hg : IsTrivia gap)
    (hc : StartsToken c rest) (h : read index (gap ++ c :: rest) = ⟨tokens, none⟩) :
    ∃ token later, tokens = token :: later ∧
      Token.read (index + gap.length) c rest = .ok token ∧
      token.ReadAt (index + gap.length) (index + (gap ++ c :: rest).length) ∧
      read token.extent.stop (rest.drop (token.extent.length - 1)) = ⟨later, none⟩ := by
  rw [read_token_append hg hc] at h
  cases hr : Token.read (index + gap.length) c rest with
  | error fault =>
    rw [hr] at h
    cases h
  | ok token =>
    rw [hr] at h
    obtain ⟨ht, hf⟩ := Lexing.mk.inj h
    have hp := Token.placesFaults_read (index + gap.length) c rest
    rw [hr] at hp
    refine ⟨token, _, ht.symm, rfl, ?_, ?_⟩
    · rw [List.length_append, ← Nat.add_assoc]
      exact hp
    · rw [← hf]
      rfl

end Lexing

/-! ### Cuts -/

open Lexing (behind read resume)

/-- One of the tokens starts or ends at the cut. -/
def Touches (cut : Nat) (tokens : List Token) : Prop :=
  ∃ token ∈ tokens, cut = token.extent.start ∨ cut = token.extent.stop

/-- No token has characters on both sides of the cut. -/
def Separates (cut : Nat) (tokens : List Token) : Prop :=
  ∀ token ∈ tokens, token.extent.stop ≤ cut ∨ cut ≤ token.extent.start

/-- In an open comment there is no token: the next one starts behind the end of the line. -/
theorem not_touches_of_resume {cut index : Nat} {text : List Char} {tokens : List Token}
    (h : resume true index text = ⟨tokens, none⟩) (hcut : cut ≤ index) : ¬Touches cut tokens := by
  rintro ⟨token, hm, ht⟩
  cases hline : Text.cutAt? '\n' text with
  | none =>
    rw [Lexing.resume_of_not_mem (Text.cutAt?_eq_none_iff.1 hline)] at h
    cases h
    cases hm
  | some pieces =>
    obtain ⟨line, rest⟩ := pieces
    obtain ⟨rfl, hn⟩ := Text.cutAt?_eq_some_iff.1 hline
    rw [Lexing.resume_line hn] at h
    have hplaced := (Lexing.arePlaced_read (index + line.length + 1) rest).1
    rw [h] at hplaced
    have hw := (hplaced.placedIn token hm).extent
    have := hw.lower_le
    have := hw.start_lt_stop
    omega

theorem Touches.of_cons {cut : Nat} {token : Token} {tokens : List Token}
    (h : Touches cut (token :: tokens)) (hlt : token.extent.start < token.extent.stop)
    (hcut : token.extent.stop < cut) : Touches cut tokens := by
  obtain ⟨other, hm, ht⟩ := h
  rcases List.mem_cons.1 hm with rfl | hm
  · omega
  · exact ⟨other, hm, ht⟩

/-- Where two slashes meet, a comment starts, and no token is near. -/
theorem not_touches_of_slashes {index : Nat} {gap right : List Char} {tokens : List Token}
    (hg : IsTrivia gap) (h : read index (gap ++ ['/'] ++ '/' :: right) = ⟨tokens, none⟩) :
    ¬Touches (index + (gap ++ ['/']).length) tokens := by
  have htext : gap ++ ['/'] ++ '/' :: right = gap ++ ['/', '/'] ++ right := by simp
  rw [htext, Lexing.read_comment_append hg List.not_mem_nil] at h
  exact not_touches_of_resume h (by simp)

/-- What is left of the front behind its first token. -/
theorem drop_of_token {index : Nat} {gap rest : List Char} {c : Char} {token : Token}
    (hstart : token.extent.start = index + gap.length)
    (hlt : token.extent.start < token.extent.stop)
    (hstop : token.extent.stop ≤ index + (gap ++ c :: rest).length) :
    token.extent.length - 1 ≤ rest.length ∧
      token.extent.stop + (rest.drop (token.extent.length - 1)).length =
        index + (gap ++ c :: rest).length := by
  simp only [List.length_append, List.length_cons, List.length_drop, Text.Extent.length] at hstop ⊢
  omega

/-- What is read of `left` and `right`, where `inComment` tells whether a comment is open between
the two. -/
structure CutInto (index : Nat) (left right : List Char) (front back : List Token)
    (inComment : Bool) : Prop where
  /-- The tokens in front do not depend on what is behind. -/
  read_append : ∀ other, StartsBlank other →
    read index (left ++ other) = behind front (resume inComment (index + left.length) other)
  resume_right : resume inComment (index + left.length) right = ⟨back, none⟩
  /-- A token that starts or ends at the cut is not in a comment. -/
  not_touches : inComment = true → left ≠ [] ∧ ¬Touches (index + left.length) (front ++ back)

namespace CutInto

variable {index : Nat} {left right : List Char} {tokens front back : List Token}

theorem of_isTrivia (hl : IsTrivia left) (h : read index (left ++ right) = ⟨tokens, none⟩) :
    CutInto index left right [] tokens false := by
  refine ⟨fun other _ => ?_, ?_, by simp⟩
  · rw [Lexing.read_trivia_append hl, Lexing.resume_false]
    rfl
  · rw [Lexing.resume_false, ← Lexing.read_trivia_append hl, h]

theorem of_comment {gap line : List Char} (hg : IsTrivia gap) (hn : '\n' ∉ line)
    (h : read index (gap ++ '/' :: '/' :: line ++ right) = ⟨tokens, none⟩) :
    CutInto index (gap ++ '/' :: '/' :: line) right [] tokens true := by
  rw [Lexing.read_comment_append hg hn] at h
  refine ⟨fun other _ => ?_, h, fun _ => ⟨by simp, ?_⟩⟩
  · rw [Lexing.read_comment_append hg hn]
    rfl
  · exact not_touches_of_resume h (Nat.le_refl _)

variable {gap rest : List Char} {c : Char} {token : Token} {inComment : Bool}

theorem cons (hg : IsTrivia gap) (hc : StartsToken c (rest ++ right))
    (hr : Token.read (index + gap.length) c (rest ++ right) = .ok token)
    (hstart : token.extent.start = index + gap.length)
    (hlt : token.extent.start < token.extent.stop)
    (hstop : token.extent.stop ≤ index + (gap ++ c :: rest).length)
    (h : CutInto token.extent.stop (rest.drop (token.extent.length - 1)) right front back
      inComment) :
    CutInto index (gap ++ c :: rest) right (token :: front) back inComment := by
  obtain ⟨hwidth, hcut⟩ := drop_of_token hstart hlt hstop
  refine ⟨fun other hother => ?_, ?_, fun hin => ⟨by simp, ?_⟩⟩
  · have hc' : StartsToken c (rest ++ other) :=
      ⟨hc.1, fun hs => hc.2 ⟨hs.1, Token.head?_append_of_startsBlank hother (by decide) hs.2 right⟩⟩
    have hend : token.extent.stop ≤ index + gap.length + 1 + rest.length := by
      simp only [List.length_append, List.length_cons] at hstop
      omega
    rw [List.append_assoc, List.cons_append, Lexing.read_token_append hg hc',
      Token.read_append hr hend hother]
    dsimp only
    rw [List.drop_append_of_le_length hwidth, h.read_append other hother, hcut]
    rfl
  · rw [← hcut, h.resume_right]
  · obtain ⟨hne, hnot⟩ := h.not_touches hin
    have hpos := List.length_pos_iff.2 hne
    rw [hcut] at hnot
    exact fun ht => hnot (ht.of_cons hlt (by omega))

end CutInto

/-- **A text can be cut between its tokens**, unless two slashes would be cut apart, which start a
comment together. -/
theorem exists_cutInto {index : Nat} {left right : List Char} {tokens : List Token}
    (h : read index (left ++ right) = ⟨tokens, none⟩)
    (hs : Separates (index + left.length) tokens)
    (hc : left = [] ∨ right.head? ≠ some '/' ∨ Touches (index + left.length) tokens) :
    ∃ front back inComment, tokens = front ++ back ∧
      CutInto index left right front back inComment := by
  induction hl : left.length using Nat.strongRecOn generalizing index left tokens with
  | _ length ih =>
    rcases cases_of_text left with hg | ⟨gap, line, rfl, hg, hn⟩ | ⟨gap, c, rest, rfl, hg, ht⟩
    · exact ⟨[], tokens, false, rfl, .of_isTrivia hg h⟩
    · exact ⟨[], tokens, true, rfl, .of_comment hg hn h⟩
    · by_cases hslash : c = '/' ∧ (rest ++ right).head? = some '/'
      · obtain ⟨rfl, hhead⟩ := hslash
        cases rest with
        | cons d rest => exact absurd ⟨rfl, hhead⟩ ht.2
        | nil =>
          obtain ⟨right, rfl⟩ := List.head?_eq_some_iff.1 hhead
          rcases hc with hc | hc | hc
          · simp at hc
          · exact absurd rfl hc
          · exact absurd hc (not_touches_of_slashes hg h)
      · have ht' : StartsToken c (rest ++ right) := ⟨ht.1, hslash⟩
        rw [List.append_assoc, List.cons_append] at h
        obtain ⟨token, later, rfl, hr, ⟨hstart, hp⟩, hlater⟩ :=
          Lexing.exists_token_of_read hg ht' h
        have hlt := hp.extent.start_lt_stop
        -- the token starts in front of the cut, so it ends there too
        have hstop : token.extent.stop ≤ index + (gap ++ c :: rest).length := by
          have := hs token List.mem_cons_self
          simp only [List.length_append, List.length_cons] at this ⊢
          omega
        obtain ⟨hwidth, hcut⟩ := drop_of_token hstart hlt hstop
        rw [List.drop_append_of_le_length hwidth] at hlater
        have hshort : (rest.drop (token.extent.length - 1)).length < length := by
          simp only [← hl, List.length_append, List.length_cons, List.length_drop]
          omega
        have hc' : rest.drop (token.extent.length - 1) = [] ∨ right.head? ≠ some '/' ∨
            Touches (index + (gap ++ c :: rest).length) later := by
          rcases hc with hc | hc | hc
          · simp at hc
          · exact .inr (.inl hc)
          · by_cases hne : rest.drop (token.extent.length - 1) = []
            · exact .inl hne
            · have := List.length_pos_iff.2 hne
              exact .inr (.inr (hc.of_cons hlt (by omega)))
        have hs' : Separates (index + (gap ++ c :: rest).length) later := fun other hm =>
          hs other (List.mem_cons_of_mem _ hm)
        rw [← hcut] at hc' hs'
        obtain ⟨front, back, inComment, rfl, hinto⟩ := ih _ hshort hlater hs' hc' rfl
        exact ⟨token :: front, back, inComment, rfl, hinto.cons hg ht' hr hstart hlt hstop⟩

/-! ### Where a text can be cut -/

/-- Where a token starts or ends, no other token is cut. -/
theorem separates_of_touches {upper lower cut : Nat} {tokens : List Token}
    (hp : Token.ArePlaced upper lower tokens) (ht : Touches cut tokens) :
    Separates cut tokens := by
  induction tokens generalizing lower with
  | nil => simp [Separates]
  | cons first rest ih =>
    obtain ⟨hfirst, hrest⟩ := hp
    have hlt := hfirst.extent.start_lt_stop
    obtain ⟨token, hm, ht⟩ := ht
    rcases List.mem_cons.1 hm with rfl | hm
    · -- all other tokens are behind
      refine List.forall_mem_cons.2 ⟨by omega, fun other hm => .inr ?_⟩
      have := (hrest.placedIn other hm).extent.lower_le
      omega
    · have hw := (hrest.placedIn token hm).extent
      have := hw.lower_le
      have := hw.start_lt_stop
      exact List.forall_mem_cons.2 ⟨.inl (by omega), ih hrest ⟨token, hm, ht⟩⟩

theorem Lexing.exists_read_of_mem {index : Nat} {text : List Char} {token : Token}
    (h : token ∈ (read index text).tokens) : ∃ before c rest, text = before ++ c :: rest ∧
      token.extent.start = index + before.length ∧
      Token.read (index + before.length) c rest = .ok token := by
  induction hl : text.length using Nat.strongRecOn generalizing index text with
  | _ length ih =>
    rcases cases_of_text text with hg | ⟨gap, line, rfl, hg, hn⟩ | ⟨gap, c, rest, rfl, hg, hc⟩
    · rw [read_of_isTrivia hg] at h
      cases h
    · rw [read_of_open_comment hg hn] at h
      cases h
    · rw [read_token_append hg hc] at h
      have hp := Token.placesFaults_read (index + gap.length) c rest
      cases hr : Token.read (index + gap.length) c rest with
      | error fault =>
        rw [hr] at h
        cases h
      | ok first =>
        rw [hr] at h hp
        obtain ⟨hstart, hp⟩ := hp
        rcases List.mem_cons.1 h with rfl | h
        · exact ⟨gap, c, rest, rfl, hstart, hr⟩
        · -- the token is in what is left behind the first one
          have hlt := hp.extent.start_lt_stop
          have hle := hp.extent.stop_le
          have hshort : (rest.drop (first.extent.length - 1)).length < length := by
            simp only [← hl, List.length_append, List.length_cons, List.length_drop]
            omega
          obtain ⟨before, d, later, hbefore, hindex, hread⟩ := ih _ hshort h rfl
          have htake := List.take_append_drop (first.extent.length - 1) rest
          have hwidth : (rest.take (first.extent.length - 1)).length + 1 = first.extent.length := by
            simp only [List.length_take, List.length_cons, Text.Extent.length] at hle ⊢
            omega
          have hend : first.extent.stop + before.length = index +
              (gap ++ c :: (rest.take (first.extent.length - 1) ++ before)).length := by
            simp only [List.length_append, List.length_cons]
            simp only [Text.Extent.length] at hwidth ⊢
            omega
          rw [hend] at hindex hread
          refine ⟨_, d, later, ?_, hindex, hread⟩
          conv => lhs; rw [← htake, hbefore]
          simp

/-- No token is cut in front of characters that neither continue a word nor close a literal. -/
theorem separates_of_forall_mem {index : Nat} {left right : List Char} {tokens : List Token}
    (h : read index (left ++ right) = ⟨tokens, none⟩)
    (hr : ∀ c ∈ right, Text.isIdentifierPart c = false ∧ c ∉ Token.closingMarks ∧ c ≠ ':') :
    Separates (index + left.length) tokens := by
  intro token hm
  obtain ⟨before, c, rest, ht, hstart, hread⟩ :=
    Lexing.exists_read_of_mem (h ▸ hm : token ∈ (read index (left ++ right)).tokens)
  by_cases hlt : before.length < left.length
  · -- the token starts in `left`, and does not end in `right`
    obtain ⟨more, rfl⟩ := exists_append_of_length_le ht.symm (Nat.le_of_lt hlt)
    rw [List.append_assoc, List.append_cancel_left_eq] at ht
    cases more with
    | nil => simp at hlt
    | cons d more =>
      obtain ⟨rfl, rfl⟩ := List.cons.inj ht
      have hstop := Token.stop_le_of_read hread hr
      simp only [List.length_append, List.length_cons]
      omega
  · exact .inr (by omega)

end Group

end TextTemplate
