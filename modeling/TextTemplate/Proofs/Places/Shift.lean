import TextTemplate.Proofs.Places.Tokens

/-!
# Moving places

The readers of bodies and tokens are given the index of the first character of a text, and all the
places that they report are counted from it.  Nothing else depends on it: a text that begins `n`
indices further to the right is read in the same way, with every place moved by `n`
(`Body.scanFrom_shift`, `Group.Lexing.read_shift`).
-/

namespace TextTemplate

/-- The fault moved by `n` indices to the right. -/
def Fault.shift (n : Nat) (fault : Fault) : Fault := ⟨fault.problem, fault.extent.shift n⟩

/-- What a reader answers, with its places moved by `n` indices to the right. -/
def shiftAnswer {α : Type} (move : Nat → α → α) (n : Nat) (answer : Except Fault α) :
    Except Fault α :=
  (answer.map (move n)).mapError (Fault.shift n)

/-! ### Bodies -/

namespace Body

/-- The item moved by `n` indices to the right. -/
def PlacedItem.shift (n : Nat) (item : PlacedItem) : PlacedItem := ⟨item.item, n + item.index⟩

/-- The items of an expression move with it. -/
theorem items_shift (n index : Nat) (text : List Char) :
    items (n + index) text = (items index text).map (PlacedItem.shift n) := by
  fun_induction items index text with
  | case1 => simp [items]
  | case2 index c rest hb ih => rw [items, if_pos hb, Nat.add_assoc, ih]
  | case3 index c rest hb hs others ih =>
    rw [items, if_neg hb, if_pos hs]
    dsimp only
    rw [Nat.add_assoc, Nat.add_assoc, ← Nat.add_assoc index, ih]
    rfl
  | case4 index c rest hb hs ih =>
    rw [items, if_neg hb, if_neg hs, Nat.add_assoc, ih]
    rfl

theorem blame_shift (n : Nat) (problem : Problem) (index : Nat) :
    blame problem (n + index) = (blame problem index).shift n := rfl

theorem readEnd_shift (n : Nat) (items : List PlacedItem) :
    readEnd (items.map (PlacedItem.shift n)) = (readEnd items).mapError (Fault.shift n) := by
  cases items <;> rfl

theorem readSegments_shift (n close : Nat) (items : List PlacedItem) :
    readSegments (n + close) (items.map (PlacedItem.shift n)) =
      (readSegments close items).mapError (Fault.shift n) := by
  fun_induction readSegments close items with
  | case1 _ c others _ rest ih =>
    rw [Except.mapError_map, ← ih]
    rfl
  | case2 place rest hr =>
    rcases rest with _ | ⟨⟨_ | _, _⟩, _⟩
    · rfl
    · exact (hr _ _ _ _ rfl).elim
    · rfl
  | case3 rest _ hr =>
    rw [Except.mapError_map, ← readEnd_shift]
    rcases rest with _ | ⟨⟨_ | c, _⟩, rest⟩
    · rfl
    · rfl
    · have hc : c ≠ '.' := by
        rintro rfl
        exact hr _ _ rfl
      simp [readSegments, hc, PlacedItem.shift]

theorem readArguments_shift (n close : Nat) (items : List PlacedItem) :
    readArguments (n + close) (items.map (PlacedItem.shift n)) =
      (readArguments close items).mapError (Fault.shift n) := by
  fun_induction readArguments close items with
  | case1 _ _ _ _ rest ih =>
    rw [Except.mapError_map, ← ih]
    rfl
  | case2 _ _ _ _ rest =>
    rw [Except.mapError_map, ← readEnd_shift]
    rfl
  | case3 _ _ _ item rest hcomma hparen =>
    rcases item with ⟨_ | c, _⟩
    · rfl
    · have hc : c ≠ ',' := by
        rintro rfl
        exact hcomma _ rfl
      have hp : c ≠ ')' := by
        rintro rfl
        exact hparen _ rfl
      simp [readArguments, hc, hp, PlacedItem.shift, blame_shift]
  | case4 => rfl
  | case5 rest h₁ h₂ h₃ h₄ =>
    rcases rest with _ | ⟨⟨_ | c, _⟩, rest⟩
    · rfl
    · cases rest with
      | nil => exact (h₄ _ _ _ rfl).elim
      | cons item rest => exact (h₃ _ _ _ _ _ rfl).elim
    · rfl

theorem readExpression_shift (n close : Nat) (items : List PlacedItem) :
    readExpression (n + close) (items.map (PlacedItem.shift n)) =
      (readExpression close items).mapError (Fault.shift n) := by
  fun_cases readExpression close items with
  | case1 _ _ _ _ _ rest =>
    rw [Except.mapError_map, ← readEnd_shift]
    rfl
  | case2 _ _ _ _ rest hr =>
    rw [Except.mapError_map, ← readArguments_shift]
    rcases rest with _ | ⟨⟨_ | c, _⟩, rest⟩
    · rfl
    · rfl
    · have hc : c ≠ ')' := by
        rintro rfl
        exact hr _ _ rfl
      simp [readExpression, hc, PlacedItem.shift]
  | case3 _ _ _ rest h₁ hr =>
    rw [Except.mapError_map, ← readSegments_shift]
    rcases rest with _ | ⟨⟨_ | c, _⟩, rest⟩
    · rfl
    · rfl
    · have hc : c ≠ '(' := by
        rintro rfl
        exact hr _ _ rfl
      simp [readExpression, hc, PlacedItem.shift]
  | case4 _ _ _ hr =>
    rcases items with _ | ⟨⟨_ | c, _⟩, rest⟩
    · rfl
    · exact (hr _ _ _ _ rfl).elim
    · rfl

/-- A body is literal text, or literal text, an expression and a body. -/
theorem scanFrom_eq (index : Nat) (text : List Char) : scanFrom index text =
    match Text.cutAt? '<' text with
    | none => .ok (literal text)
    | some (run, inner) =>
      match Text.cutAt? '>' inner with
      | none => .error ⟨.unfinishedExpression, ⟨index + run.length, index + text.length⟩⟩
      | some (content, later) =>
        let close := index + run.length + 1 + content.length
        match readExpression close (items (index + run.length + 1) content) with
        | .error fault => .error fault
        | .ok expression =>
          (scanFrom (close + 1) later).map fun expressions =>
            literal run ++ expression :: expressions := by
  rw [scanFrom]
  split
  · next ho => simp only [ho]
  · next run inner ho =>
    simp only [ho]
    split
    · next hi => simp only [hi]
    · next hi =>
      rewrite [hi]
      rfl

/-- **Faults of a body move with it**, and its expressions stay the same. -/
theorem scanFrom_shift (n index : Nat) (text : List Char) :
    scanFrom (n + index) text = (scanFrom index text).mapError (Fault.shift n) := by
  induction hl : text.length using Nat.strongRecOn generalizing index text with
  | _ length ih =>
    rw [scanFrom_eq, scanFrom_eq index]
    cases ho : Text.cutAt? '<' text with
    | none => rfl
    | some cut =>
      obtain ⟨run, inner⟩ := cut
      dsimp only
      cases hi : Text.cutAt? '>' inner with
      | none =>
        simp only [Except.mapError_error, Fault.shift, Text.Extent.shift, Nat.add_assoc]
      | some cut =>
        obtain ⟨content, later⟩ := cut
        have hshort : later.length < length := by
          rw [← hl, (Text.cutAt?_eq_some_iff.1 ho).1, (Text.cutAt?_eq_some_iff.1 hi).1]
          simp only [List.length_append, List.length_cons]
          omega
        have hlater :=
          ih later.length hshort (index + run.length + 1 + content.length + 1) later rfl
        have he := readExpression_shift n (index + run.length + 1 + content.length)
          (items (index + run.length + 1) content)
        rw [← items_shift] at he
        -- all places of the expression are counted from `n + index`
        have hopen : n + index + run.length + 1 = n + (index + run.length + 1) := by omega
        dsimp only
        rw [hopen, Nat.add_assoc n, he]
        cases readExpression (index + run.length + 1 + content.length)
            (items (index + run.length + 1) content) with
        | error fault => rfl
        | ok expression =>
          dsimp only [Except.mapError_ok]
          rw [Nat.add_assoc n, hlater, ← Except.mapError_map]

end Body

/-! ### Tokens -/

namespace Group

/-- The content moved by `n` indices to the right. -/
def Content.shift (n : Nat) (content : Content) : Content :=
  ⟨content.characters.map fun (c, index) => (c, n + index), n + content.close⟩

/-- The token moved by `n` indices to the right. -/
def Token.shift (n : Nat) (token : Token) : Token :=
  ⟨token.kind, token.value, token.extent.shift n, token.offsets.map (n + ·)⟩

theorem Quoted.read_shift (n start index : Nat) (text : List Char) :
    read (n + start) (n + index) text =
      shiftAnswer Content.shift n (read start index text) := by
  fun_induction read start index text with
  | case1 index => rw [read]; rfl
  | case2 index rest => rw [read, if_pos rfl]; rfl
  | case3 index c rest hq e he =>
    rw [read, if_neg hq, he]
    dsimp only
    rw [Nat.add_assoc]
    rfl
  | case4 index c rest hq d width hs ih =>
    rw [read, if_neg hq, hs]
    dsimp only
    rw [Nat.add_assoc, ih]
    cases read start (index + width) (rest.drop (width - 1)) <;> rfl
  | case5 index c rest hq width hs ih =>
    rw [read, if_neg hq, hs]
    dsimp only
    rw [Nat.add_assoc, ih]

theorem Raw.read_shift (n hashes start index : Nat) (text : List Char) :
    read hashes (n + start) (n + index) text =
      shiftAnswer Content.shift n (read hashes start index text) := by
  induction text generalizing index with
  | nil => rfl
  | cons c rest ih =>
    rw [read, read]
    split
    · rfl
    · rw [Nat.add_assoc, ih]
      cases read hashes start (index + 1) rest <;> rfl

theorem Angle.read_shift (n start : Nat) (inExpression : Bool) (index : Nat) (text : List Char) :
    read (n + start) inExpression (n + index) text =
      shiftAnswer Content.shift n (read start inExpression index text) := by
  induction text generalizing inExpression index with
  | nil => rfl
  | cons c rest ih =>
    rw [read, read]
    split
    · rfl
    · dsimp only
      rw [Nat.add_assoc, ih]
      cases read start _ (index + 1) rest <;> rfl

namespace Token

theorem verbatim_shift (n : Nat) (kind : Kind) (index : Nat) (characters : List Char) :
    verbatim kind (n + index) characters = (verbatim kind index characters).shift n := by
  simp only [verbatim, shift, Text.Extent.shift, Nat.add_assoc, List.map_nil]

theorem ofContent_shift (n index closeLength : Nat) (answer : Except Fault Content) :
    (shiftAnswer Content.shift n answer).map (ofContent (n + index) closeLength) =
      shiftAnswer shift n (answer.map (ofContent index closeLength)) := by
  cases answer with
  | error fault => rfl
  | ok content =>
    have hv : (content.shift n).value = content.value := by
      simp [Content.shift, Content.value, Function.comp_def]
    have ho : (content.shift n).offsets = content.offsets.map (n + ·) := by
      simp [Content.shift, Content.offsets, Function.comp_def]
    show Except.ok (ofContent (n + index) closeLength (content.shift n)) =
      Except.ok ((ofContent index closeLength content).shift n)
    rw [ofContent, hv, ho]
    simp only [ofContent, shift, Content.shift, Text.Extent.shift, Nat.add_assoc]

/-- **Tokens move with the text.** -/
theorem read_shift (n index : Nat) (c : Char) (rest : List Char) :
    read (n + index) c rest = shiftAnswer shift n (read index c rest) := by
  unfold read
  split
  · simp only [Nat.add_assoc]
    rw [Raw.read_shift, ofContent_shift]
  · split
    · rw [verbatim_shift]
      rfl
    · split
      · rw [Nat.add_assoc, Quoted.read_shift, ofContent_shift]
      · split
        · rw [Nat.add_assoc, Angle.read_shift, ofContent_shift]
        · split <;>
          · rw [verbatim_shift]
            rfl

end Token

namespace Lexing

/-- The tokens and the fault moved by `n` indices to the right. -/
def shift (n : Nat) (lexing : Lexing) : Lexing :=
  ⟨lexing.tokens.map (Token.shift n), lexing.fault?.map (Fault.shift n)⟩

/-- A text is blanks and comments, or begins with a token behind them. -/
theorem read_eq (index : Nat) (text : List Char) : read index text =
    match text.drop (triviaLength false text) with
    | [] => ⟨[], none⟩
    | c :: rest =>
      match Token.read (index + triviaLength false text) c rest with
      | .error fault => ⟨[], some fault⟩
      | .ok token =>
        let later := read token.extent.stop (rest.drop (token.extent.length - 1))
        ⟨token :: later.tokens, later.fault?⟩ := by
  rw [read]
  split
  · next hd => simp only [hd]
  · next c rest hd =>
    dsimp only
    rewrite [hd]
    rfl

/-- **The tokens of a text move with it**, and so does what is wrong with them. -/
theorem read_shift (n index : Nat) (text : List Char) :
    read (n + index) text = (read index text).shift n := by
  induction hl : text.length using Nat.strongRecOn generalizing index text with
  | _ length ih =>
    rw [read_eq, read_eq index]
    cases hd : text.drop (triviaLength false text) with
    | nil => rfl
    | cons c rest =>
      dsimp only
      rw [Nat.add_assoc, Token.read_shift]
      cases Token.read (index + triviaLength false text) c rest with
      | error fault => rfl
      | ok token =>
        have hshort : (rest.drop (token.extent.length - 1)).length < length := by
          have := congrArg List.length hd
          simp only [List.length_drop, List.length_cons] at this ⊢
          omega
        have hlength : (token.extent.shift n).length = token.extent.length := by
          simp only [Text.Extent.length, Text.Extent.shift]
          omega
        have hlater := ih _ hshort token.extent.stop _ rfl
        show Lexing.mk (_ :: _) _ = _
        simp only [Token.shift, hlength]
        rw [show (token.extent.shift n).stop = n + token.extent.stop from rfl, hlater]
        rfl

end Lexing

end Group

end TextTemplate
