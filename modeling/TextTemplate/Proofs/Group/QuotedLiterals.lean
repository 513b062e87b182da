import TextTemplate.Proofs.Group.Lexemes

/-!
# What quoted literals encode

`Quoted.Encodes` lists the ways to write characters between quotes: a spelling for each of them, and
line continuations in between.  A quoted literal is read exactly where an encoding stands in front
of its closing quote (`Quoted.read_eq_ok_iff`), and every character has the index at which its
spelling starts.
-/

namespace TextTemplate

namespace Group

/-- The character behind a front. -/
theorem exists_eq_takeWhile_append {p : Char → Bool} {c : Char} {text : List Char}
    (h : (text.drop (text.takeWhile p).length).head? = some c) :
    ∃ later, text = text.takeWhile p ++ c :: later := by
  have hfront := List.takeWhile_append_dropWhile (p := p) (l := text)
  have hbehind := congrArg (List.drop (text.takeWhile p).length) hfront
  rw [List.drop_left] at hbehind
  rw [← hbehind] at h
  obtain ⟨later, hlater⟩ := List.head?_eq_some_iff.1 h
  exact ⟨later, by rw [← hlater, hfront]⟩

namespace Quoted

/-- The spellings of one character. -/
inductive SpellsCharacter (c : Char) : List Char → Prop
  | verbatim : c ≠ '"' → c ≠ '\\' → SpellsCharacter c [c]
  | letter {e : Char} : escapeLetter? e = some c → SpellsCharacter c ['\\', e]
  | byte {a b : Char} : isHexDigit a = true → isHexDigit b = true → hexValue [a, b] = c.toNat →
      c.toNat ≤ 0x7F → SpellsCharacter c ['\\', 'x', a, b]
  | unicode {digits : List Char} : (∀ d ∈ digits, isHexDigit d = true) → 1 ≤ digits.length →
      digits.length ≤ 6 → hexValue digits = c.toNat →
      SpellsCharacter c ('\\' :: 'u' :: '{' :: (digits ++ ['}']))

/-- What follows the blanks of a line continuation is no such blank. -/
def EndsContinuation (text : List Char) : Prop :=
  ∀ d, text.head? = some d → isContinuationBlank d = false

/-- The text from the index on encodes the characters, each with the index at which its spelling
starts. -/
inductive Encodes : Nat → List Char → List (Char × Nat) → Prop
  | nil (index : Nat) : Encodes index [] []
  | character {index : Nat} {c : Char} {spelt rest : List Char} {characters : List (Char × Nat)} :
      SpellsCharacter c spelt → Encodes (index + spelt.length) rest characters →
      Encodes index (spelt ++ rest) ((c, index) :: characters)
  | continuation {index : Nat} {blanks rest : List Char} {characters : List (Char × Nat)} :
      (∀ d ∈ blanks, isContinuationBlank d = true) → EndsContinuation rest →
      Encodes (index + (blanks.length + 2)) rest characters →
      Encodes index ('\\' :: '\n' :: (blanks ++ rest)) characters

variable {c : Char} {digits spelt blanks rest later : List Char} {spelling : Spelling}

/-! ### Code points -/

theorem toNat_ofNat {codePoint : Nat} (h : codePoint.isValidChar) :
    (Char.ofNat codePoint).toNat = codePoint := by
  rw [Char.ofNat, dif_pos h]
  rfl

theorem scalar?_eq_some_iff {codePoint : Nat} : scalar? codePoint = some c ↔ codePoint = c.toNat := by
  unfold scalar?
  constructor
  · intro h
    split at h
    · next hv =>
      cases h
      exact (toNat_ofNat hv).symm
    · cases h
  · rintro rfl
    have hv : c.toNat.isValidChar := c.valid
    rw [if_pos hv, Char.ofNat_toNat]

theorem char_le_iff {a b : Char} : a ≤ b ↔ a.toNat ≤ b.toNat :=
  Char.le_def.trans UInt32.le_iff_toNat_le

/-- Two hexadecimal digits spell a number up to `7F` just where the first is an octal digit. -/
theorem hexValue_pair_le_iff {a b : Char} (hb : isHexDigit b = true) :
    isHexDigit a = true ∧ hexValue [a, b] ≤ 0x7F ↔ '0' ≤ a ∧ a ≤ '7' := by
  have hvalue : hexValue [a, b] = 16 * (hexDigit? a).getD 0 + (hexDigit? b).getD 0 := by
    simp [hexValue]
  rw [hvalue]
  simp only [isHexDigit, hexDigit?, char_le_iff, Char.reduceToNat] at *
  grind

/-! ### Reading a spelling -/

/-- The spelling that was read stands at the front of the text. -/
def Spelling.Stands (text : List Char) : Spelling → Prop
  | .character c width =>
    ∃ spelt later, text = spelt ++ later ∧ width = spelt.length ∧ SpellsCharacter c spelt
  | .continuation width =>
    ∃ blanks later, text = '\\' :: '\n' :: (blanks ++ later) ∧ width = blanks.length + 2 ∧
      (∀ d ∈ blanks, isContinuationBlank d = true) ∧ EndsContinuation later

theorem stands_of_readUnicodeEscape (h : readUnicodeEscape rest = .ok spelling) :
    spelling.Stands ('\\' :: 'u' :: rest) := by
  unfold readUnicodeEscape at h
  dsimp only at h
  split at h
  · next hc =>
    obtain ⟨⟨hopen, hclose⟩, hl, hu⟩ := hc
    obtain ⟨text, rfl⟩ := List.head?_eq_some_iff.1 hopen
    simp only [List.drop_succ_cons, List.drop_zero, Nat.add_comm 1] at h hclose hl hu
    obtain ⟨later, hlater⟩ := exists_eq_takeWhile_append hclose
    have hd : ∀ d ∈ text.takeWhile isHexDigit, isHexDigit d = true :=
      List.all_eq_true.1 List.all_takeWhile
    split at h
    · next d hs =>
      cases h
      exact ⟨'\\' :: 'u' :: '{' :: (text.takeWhile isHexDigit ++ ['}']), later, by simp [← hlater],
        by simp, .unicode hd hl hu (scalar?_eq_some_iff.1 hs)⟩
    · cases h
  · cases h

theorem stands_of_readByteEscape (h : readByteEscape rest = .ok spelling) :
    spelling.Stands ('\\' :: 'x' :: rest) := by
  unfold readByteEscape at h
  split at h
  · next a b later =>
    split at h
    · next hc =>
      obtain ⟨ha, hle⟩ := (hexValue_pair_le_iff hc.2.2).2 ⟨hc.1, hc.2.1⟩
      have hv := toNat_ofNat (.inl (Nat.lt_of_le_of_lt hle (by decide)))
      cases h
      exact ⟨['\\', 'x', a, b], later, rfl, rfl, .byte ha hc.2.2 hv.symm (by rwa [hv])⟩
    · cases h
  · cases h

/-- A line continuation takes all the blanks. -/
theorem stands_continuation (rest : List Char) :
    (Spelling.continuation (2 + (rest.takeWhile isContinuationBlank).length)).Stands
      ('\\' :: '\n' :: rest) := by
  refine ⟨rest.takeWhile isContinuationBlank, rest.dropWhile isContinuationBlank, ?_,
    Nat.add_comm _ _, List.all_eq_true.1 List.all_takeWhile, ?_⟩
  · rw [List.takeWhile_append_dropWhile]
  · intro d hd
    have hnot := List.head?_dropWhile_not isContinuationBlank rest
    simpa [hd] using hnot

theorem stands_of_readEscape (h : readEscape rest = .ok spelling) :
    spelling.Stands ('\\' :: rest) := by
  unfold readEscape at h
  split at h
  · cases h
  · next e rest =>
    split at h
    · next he =>
      cases h
      exact ⟨['\\', e], rest, rfl, rfl, .letter he⟩
    · split at h
      · next hn =>
        subst hn
        cases h
        exact stands_continuation rest
      · split at h
        · next hx =>
          subst hx
          exact stands_of_readByteEscape h
        · split at h
          · next hu =>
            subst hu
            exact stands_of_readUnicodeEscape h
          · cases h

theorem stands_of_readSpelling (hq : c ≠ '"') (h : readSpelling c rest = .ok spelling) :
    spelling.Stands (c :: rest) := by
  unfold readSpelling at h
  split at h
  · next hb =>
    subst hb
    exact stands_of_readEscape h
  · next hb =>
    cases h
    exact ⟨[c], rest, rfl, rfl, .verbatim hq hb⟩

theorem takeWhile_hexDigits {digits : List Char} (h : ∀ c ∈ digits, isHexDigit c = true)
    (rest : List Char) : (digits ++ '}' :: rest).takeWhile isHexDigit = digits := by
  have hclose : isHexDigit '}' = false := by decide
  rw [List.takeWhile_append_of_pos h]
  simp [hclose]

/-- A spelling is read as the character it spells, whatever follows. -/
theorem SpellsCharacter.exists_readSpelling (h : SpellsCharacter c spelt) (later : List Char) :
    ∃ e front, spelt = e :: front ∧ e ≠ '"' ∧
      readSpelling e (front ++ later) = .ok (.character c spelt.length) := by
  cases h with
  | verbatim hq hb => exact ⟨c, [], rfl, hq, if_neg hb⟩
  | @letter e he =>
    refine ⟨'\\', [e], rfl, by decide, ?_⟩
    simp [readSpelling, readEscape, he]
  | @byte a b ha hb hv hle =>
    have hoctal := (hexValue_pair_le_iff hb).1 ⟨ha, hv ▸ hle⟩
    have hread : readByteEscape (a :: b :: later) = .ok (.character c 4) := by
      rw [readByteEscape, if_pos ⟨hoctal.1, hoctal.2, hb⟩, hv, Char.ofNat_toNat]
    exact ⟨'\\', ['x', a, b], rfl, by decide, hread⟩
  | @unicode digits hd hl hu hv =>
    have hs : scalar? (hexValue digits) = some c := scalar?_eq_some_iff.2 hv
    have hread : readUnicodeEscape ('{' :: (digits ++ '}' :: later)) =
        .ok (.character c (digits.length + 4)) := by
      simp [readUnicodeEscape, takeWhile_hexDigits hd, Nat.add_comm 1, hs, hl, hu]
    have hescape : readSpelling '\\' ('u' :: '{' :: (digits ++ '}' :: later)) =
        .ok (.character c (digits.length + 4)) := hread
    refine ⟨'\\', _, rfl, by decide, ?_⟩
    simpa using hescape

theorem SpellsCharacter.ne_nil (h : SpellsCharacter c spelt) : spelt ≠ [] := by
  obtain ⟨e, front, rfl, -, -⟩ := h.exists_readSpelling []
  exact List.cons_ne_nil e front

/-! ### Reading a literal -/

section

variable {start index : Nat} {characters : List (Char × Nat)}

/-- Behind the spelling of a character, reading goes on. -/
theorem read_spelling (h : SpellsCharacter c spelt) (later : List Char) :
    read start index (spelt ++ later) =
      (read start (index + spelt.length) later).map (Content.cons c index) := by
  obtain ⟨e, front, rfl, hq, hs⟩ := h.exists_readSpelling later
  rw [List.cons_append, read, if_neg hq, hs]
  simp

theorem read_continuation (hb : ∀ d ∈ blanks, isContinuationBlank d = true)
    (hl : EndsContinuation later) : read start index ('\\' :: '\n' :: (blanks ++ later)) =
      read start (index + (blanks.length + 2)) later := by
  have htake : (blanks ++ later).takeWhile isContinuationBlank = blanks := by
    rw [List.takeWhile_append_of_pos hb]
    cases later with
    | nil => simp
    | cons d later => simp [hl d rfl]
  have hs : readSpelling '\\' ('\n' :: (blanks ++ later)) =
      .ok (.continuation (2 + blanks.length)) := by
    have hread : readSpelling '\\' ('\n' :: (blanks ++ later)) =
      .ok (.continuation (2 + ((blanks ++ later).takeWhile isContinuationBlank).length)) := rfl
    rw [hread, htake]
  rw [read, if_neg (by decide), hs]
  simp [Nat.add_comm 2]

/-- An encoding is read up to the quote behind it. -/
theorem Encodes.read (h : Encodes index spelt characters) (start : Nat) (later : List Char) :
    Quoted.read start index (spelt ++ '"' :: later) = .ok ⟨characters, index + spelt.length⟩ := by
  induction h with
  | nil index => rw [List.nil_append, Quoted.read, if_pos rfl]; rfl
  | @character index c spelt rest characters hs _ ih =>
    rw [List.append_assoc, read_spelling hs, ih, List.length_append, Nat.add_assoc]
    rfl
  | @continuation index blanks rest characters hb hr _ ih =>
    -- where the encoding ends with the blanks, the closing quote ends them
    have hends : EndsContinuation (rest ++ '"' :: later) := by
      intro d hd
      cases rest with
      | nil =>
        cases hd
        decide
      | cons e rest => exact hr d hd
    simp only [List.cons_append, List.append_assoc]
    rw [read_continuation hb hends, ih]
    simp only [List.length_cons, List.length_append]
    congr 2
    omega

theorem drop_of_cons_eq_append (h : c :: rest = spelt ++ later) (hs : spelt ≠ []) :
    rest.drop (spelt.length - 1) = later := by
  obtain ⟨e, front, rfl⟩ := List.exists_cons_of_ne_nil hs
  obtain ⟨-, rfl⟩ := List.cons.inj h
  simp

/-- What is read is encoded in front of the quote that ends it. -/
theorem encodes_of_read {text : List Char} {content : Content}
    (h : read start index text = .ok content) : ∃ spelt later, text = spelt ++ '"' :: later ∧
      Encodes index spelt content.characters ∧ content.close = index + spelt.length := by
  -- along the reader: what it took in one turn stands in front of the encoding of the rest
  fun_induction read start index text generalizing content with
  | case1 => cases h
  | case2 index rest =>
    cases h
    exact ⟨[], rest, rfl, .nil index, rfl⟩
  | case3 => cases h
  | case4 index c rest hq d width hs ih =>
    obtain ⟨content, hr, rfl⟩ := Except.map_eq_ok_iff.1 h
    obtain ⟨front, behind, ht, rfl, hspells⟩ := stands_of_readSpelling hq hs
    obtain ⟨spelt, later, hd, he, hclose⟩ := ih hr
    obtain rfl := (drop_of_cons_eq_append ht hspells.ne_nil).symm.trans hd
    refine ⟨front ++ spelt, later, by simp [ht], .character hspells he, ?_⟩
    simp only [Content.cons, hclose, List.length_append, Nat.add_assoc]
  | case5 index c rest hq width hs ih =>
    obtain ⟨blanks, behind, ht, rfl, hb, hbehind⟩ := stands_of_readSpelling hq hs
    obtain ⟨spelt, later, hd, he, hclose⟩ := ih h
    have hdrop := drop_of_cons_eq_append
      (show c :: rest = ('\\' :: '\n' :: blanks) ++ behind from ht) (by simp)
    obtain rfl := hdrop.symm.trans hd
    have hspelt : EndsContinuation spelt := fun d hs => hbehind d (by simp [hs])
    refine ⟨'\\' :: '\n' :: (blanks ++ spelt), later, by simp [ht], .continuation hb hspelt he, ?_⟩
    simp only [hclose, List.length_cons, List.length_append]
    omega

theorem read_eq_ok_iff (start index : Nat) {text : List Char} {content : Content} :
    read start index text = .ok content ↔ ∃ spelt later, text = spelt ++ '"' :: later ∧
      Encodes index spelt content.characters ∧ content.close = index + spelt.length := by
  constructor
  · exact encodes_of_read
  · rintro ⟨spelt, later, rfl, he, hclose⟩
    rw [he.read, ← hclose]

end

end Quoted

/-- **Quoted literals decode exactly their encodings.**  A literal is read where an encoding of
characters stands between its quotes, whatever follows; its value are the characters, it ends right
behind the closing quote, and its offsets are the indices at which the characters are spelt and that
of the quote. -/
theorem quoted_literals_decode_their_encodings (index : Nat) (text : List Char) (token : Token) :
    Token.read index '"' text = .ok token ↔
      ∃ spelt later characters, text = spelt ++ '"' :: later ∧
        Quoted.Encodes (index + 1) spelt characters ∧
        token = ⟨.string, String.ofList (characters.map Prod.fst),
          ⟨index, index + spelt.length + 2⟩,
          characters.map Prod.snd ++ [index + 1 + spelt.length]⟩ := by
  rw [Token.read_quote, Except.map_eq_ok_iff]
  constructor
  · rintro ⟨content, hr, rfl⟩
    obtain ⟨spelt, later, ht, he, hclose⟩ := (Quoted.read_eq_ok_iff _ _).1 hr
    refine ⟨spelt, later, content.characters, ht, he, ?_⟩
    simp only [Token.ofContent, Content.value, Content.offsets, hclose]
    congr 2
    omega
  · rintro ⟨spelt, later, characters, rfl, he, rfl⟩
    refine ⟨_, he.read index later, ?_⟩
    simp only [Token.ofContent, Content.value, Content.offsets]
    congr 2
    omega

example : Token.read 0 '"' "\\u{e9}\\\n  \\x41\" rest".toList =
    .ok ⟨.string, "éA", ⟨0, 16⟩, [1, 11, 15]⟩ := by cbv

end Group

end TextTemplate
