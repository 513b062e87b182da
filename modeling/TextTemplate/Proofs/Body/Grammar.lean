import Mathlib.Data.List.Chain
import TextTemplate.Proofs.Places.Shift
import TextTemplate.Proofs.Group.Lexemes

/-!
# The grammar of template bodies

The inverse of reading bodies.  An expression in brackets is written with words: its names, which
are identifiers, and single marks (`Expression.words`).  Blanks may stand around each word
(`Spaced`).

* `Body.readExpression_items_eq_ok_iff`: the content of a pair of brackets is read as an expression
  exactly when it is made of the words of that expression;
* `Body.Spells` says which bodies read as given expressions, going along the body;
* `Body.IsNormal` and `Body.Prints` say the same going along the expressions: which lists of them
  are read at all, and with which texts they are written;
* `Body.scan_eq_ok_iff_grammar`: reading a body follows both accounts.
-/

namespace TextTemplate

/-! ### Words -/

namespace Expression

/-- The names and marks that an expression in brackets is written with. -/
def words : Expression → List String
  | .literal _ => []
  | .attribute name => [name]
  | .path name segments => name :: segments.flatMap fun segment => [".", segment]
  | .inclusion name arguments => name :: "(" :: (arguments.intersperse "," ++ [")"])

/-- The expression stands in brackets: its names are identifiers, and a path has segments. -/
def IsBracketed : Expression → Prop
  | .literal _ => False
  | .attribute name => Text.isIdentifier name.toList = true
  | .path name segments => Text.isIdentifier name.toList = true ∧ segments ≠ [] ∧
      ∀ segment ∈ segments, Text.isIdentifier segment.toList = true
  | .inclusion name arguments => Text.isIdentifier name.toList = true ∧
      ∀ argument ∈ arguments, Text.isIdentifier argument.toList = true

/-- The expression is literal text. -/
def IsLiteral : Expression → Prop
  | .literal _ => True
  | _ => False

theorem IsBracketed.not_isLiteral {e : Expression} (h : e.IsBracketed) : ¬e.IsLiteral := by
  cases e with
  | literal s => exact h.elim
  | _ => exact id

end Expression

namespace Body

/-- The words stand in the text in their order, with blanks before, between and behind them. -/
inductive Spaced : List String → List Char → Prop
  | nil {gap : List Char} : (∀ c ∈ gap, Text.isBlank c = true) → Spaced [] gap
  | cons {gap rest : List Char} {word : String} {words : List String} :
      (∀ c ∈ gap, Text.isBlank c = true) → Spaced words rest →
      Spaced (word :: words) (gap ++ (word.toList ++ rest))

theorem Spaced.blank_cons {c : Char} {words : List String} {text : List Char}
    (hc : Text.isBlank c = true) (h : Spaced words text) : Spaced words (c :: text) := by
  cases h with
  | nil hg => exact .nil (List.forall_mem_cons.2 ⟨hc, hg⟩)
  | cons hg hr => exact .cons (List.forall_mem_cons.2 ⟨hc, hg⟩) hr

theorem Spaced.word_append {words : List String} {text : List Char} (word : List Char)
    (h : Spaced words text) : Spaced (String.ofList word :: words) (word ++ text) := by
  have hspaced : Spaced (String.ofList word :: words) ([] ++ ((String.ofList word).toList ++ text)) :=
    .cons (by simp) h
  rwa [String.toList_ofList] at hspaced

/-- The marks of expressions. -/
def marks : List String := [".", "(", ",", ")"]

/-- The words can be told apart where no blank stands between them: a name is followed by a
mark. -/
inductive AreApart : List String → Prop
  | nil : AreApart []
  | mark {word : String} {words : List String} :
      word ∈ marks → AreApart words → AreApart (word :: words)
  | name {word : String} {words : List String} : Text.isIdentifier word.toList = true →
      (∀ next, words.head? = some next → next ∈ marks) → AreApart words →
      AreApart (word :: words)

theorem areApart_segments {segments : List String}
    (h : ∀ segment ∈ segments, Text.isIdentifier segment.toList = true) :
    AreApart (segments.flatMap fun segment => [".", segment]) := by
  induction segments with
  | nil => exact .nil
  | cons segment segments ih =>
    obtain ⟨hs, hsegments⟩ := List.forall_mem_cons.1 h
    refine .mark (by simp [marks]) (.name hs ?_ (ih hsegments))
    cases segments <;> simp [marks]

theorem areApart_arguments {arguments : List String}
    (h : ∀ argument ∈ arguments, Text.isIdentifier argument.toList = true) :
    AreApart (arguments.intersperse "," ++ [")"]) := by
  have hclose : AreApart [")"] := .mark (by simp [marks]) .nil
  induction arguments with
  | nil => exact hclose
  | cons argument arguments ih =>
    obtain ⟨ha, harguments⟩ := List.forall_mem_cons.1 h
    cases arguments with
    | nil => exact .name ha (by simp [marks]) hclose
    | cons next arguments =>
      exact .name ha (by simp [marks]) (.mark (by simp [marks]) (ih harguments))

theorem areApart_words {e : Expression} (h : e.IsBracketed) : AreApart e.words := by
  cases e with
  | literal s => exact .nil
  | «attribute» name => exact .name h (by simp) .nil
  | path name segments =>
    obtain ⟨hn, -, hs⟩ := h
    refine .name hn ?_ (areApart_segments hs)
    cases segments <;> simp [marks]
  | inclusion name arguments =>
    obtain ⟨hn, ha⟩ := h
    exact .name hn (by simp [marks]) (.mark (by simp [marks]) (areApart_arguments ha))

/-! ### Items -/

/-- The item as a word. -/
def Item.word (item : Item) : String := String.ofList item.characters

/-- The words of items. -/
def wordsOf (items : List PlacedItem) : List String := items.map fun item => item.item.word

/-- A name is an identifier, and a mark does not start one. -/
def Item.IsProper : Item → Prop
  | .name c others => Text.isIdentifier (c :: others) = true
  | .mark c => Text.isIdentifierStart c = false

/-- All items are proper, as those of a text are (`areProper_items`). -/
def AreProper (items : List PlacedItem) : Prop := ∀ item ∈ items, item.item.IsProper

theorem areProper_items (index : Nat) (text : List Char) : AreProper (items index text) := by
  fun_induction items index text with
  | case1 => simp [AreProper]
  | case2 _ _ _ _ ih => exact ih
  | case3 index c rest _ hs others ih =>
    refine List.forall_mem_cons.2 ⟨?_, ih⟩
    exact Bool.and_eq_true_iff.2 ⟨hs, List.all_takeWhile⟩
  | case4 index c rest _ hs ih =>
    exact List.forall_mem_cons.2 ⟨Bool.eq_false_iff.2 hs, ih⟩

/-- Nothing but blanks is lost of a text. -/
theorem spaced_items (index : Nat) (text : List Char) :
    Spaced (wordsOf (items index text)) text := by
  fun_induction items index text with
  | case1 => exact .nil (by simp)
  | case2 index c rest hb ih => exact ih.blank_cons hb
  | case3 index c rest _ _ others ih =>
    have htext : c :: rest = (c :: others) ++ rest.drop others.length := by
      have hothers : others <+: rest := List.takeWhile_prefix _
      rw [List.cons_append, List.prefix_iff_eq_append.1 hothers]
    rw [htext]
    exact ih.word_append _
  | case4 index c rest _ _ ih => exact ih.word_append [c]

theorem items_blanks_append {gap : List Char} (h : ∀ c ∈ gap, Text.isBlank c = true)
    (index : Nat) (text : List Char) : items index (gap ++ text) = items (index + gap.length) text := by
  induction gap generalizing index with
  | nil => rfl
  | cons c gap ih =>
    obtain ⟨hc, hgap⟩ := List.forall_mem_cons.1 h
    rw [List.cons_append, items, if_pos hc, ih hgap, List.length_cons, Nat.add_right_comm,
      Nat.add_assoc]

/-- A mark, or the end of the words, ends a name. -/
theorem Spaced.isIdentifierPart_eq_false {words : List String} {text : List Char}
    (h : Spaced words text) (hw : ∀ next, words.head? = some next → next ∈ marks) :
    ∀ c, text.head? = some c → Text.isIdentifierPart c = false := by
  have hblank : ∀ gap : List Char, (∀ c ∈ gap, Text.isBlank c = true) →
      ∀ c, gap.head? = some c → Text.isIdentifierPart c = false := fun gap hg c hc =>
    Group.isIdentifierPart_eq_false_of_isBlank (hg c (List.mem_of_mem_head? hc))
  have hmarks : ∀ mark ∈ marks, ∀ c rest, (mark.toList ++ rest).head? = some c →
      Text.isIdentifierPart c = false := by
    simp [marks]
    decide
  cases h with
  | nil hg => exact hblank _ hg
  | @cons gap rest word _ hg hr =>
    cases gap with
    | nil => exact fun c hc => hmarks word (hw word rfl) c rest hc
    | cons d gap => exact hblank (d :: gap) hg

theorem wordsOf_items_mark_append {mark : String} (hm : mark ∈ marks) (index : Nat)
    (rest : List Char) : wordsOf (items index (mark.toList ++ rest)) =
      mark :: wordsOf (items (index + 1) rest) := by
  have hmarks : ∀ mark ∈ marks, ∃ c, mark = String.singleton c ∧ Text.isBlank c = false ∧
      Text.isIdentifierStart c = false := by
    simp only [marks, List.forall_mem_cons]
    exact ⟨⟨'.', by decide⟩, ⟨'(', by decide⟩, ⟨',', by decide⟩, ⟨')', by decide⟩, by simp⟩
  obtain ⟨c, rfl, hb, hs⟩ := hmarks mark hm
  rw [String.toList_singleton, List.singleton_append, items, if_neg (Bool.eq_false_iff.1 hb),
    if_neg (Bool.eq_false_iff.1 hs)]
  rfl

theorem wordsOf_items_name_append {name : String} {rest : List Char}
    (hn : Text.isIdentifier name.toList = true)
    (hend : ∀ c, rest.head? = some c → Text.isIdentifierPart c = false) (index : Nat) :
    wordsOf (items index (name.toList ++ rest)) =
      name :: wordsOf (items (index + name.toList.length) rest) := by
  have hname : String.ofList name.toList = name := String.ofList_toList
  cases hl : name.toList with
  | nil => simp [hl, Text.isIdentifier] at hn
  | cons c letters =>
    rw [hl] at hn hname
    obtain ⟨hc, hletters⟩ := Bool.and_eq_true_iff.1 hn
    have hb : ¬Text.isBlank c = true := by
      intro hb
      have := Text.isIdentifierPart_of_isIdentifierStart hc
      simp [Group.isIdentifierPart_eq_false_of_isBlank hb] at this
    have htake : (letters ++ rest).takeWhile Text.isIdentifierPart = letters := by
      rw [List.takeWhile_append_of_pos (List.all_eq_true.1 hletters)]
      cases rest with
      | nil => simp
      | cons d rest => simp [hend d rfl]
    rw [List.cons_append, items, if_neg hb, if_pos hc]
    dsimp only
    rw [htake, List.drop_left, List.length_cons, Nat.add_assoc, Nat.add_comm 1]
    exact congrArg (· :: _) hname

/-- Words that can be told apart are read back. -/
theorem Spaced.wordsOf_items {words : List String} {text : List Char} (h : Spaced words text)
    (ha : AreApart words) (index : Nat) : wordsOf (items index text) = words := by
  induction h generalizing index with
  | nil hg =>
    have := items_blanks_append hg index []
    rw [List.append_nil] at this
    simp [this, items, wordsOf]
  | cons hg hr ih =>
    rw [items_blanks_append hg]
    cases ha with
    | mark hm hw => rw [wordsOf_items_mark_append hm, ih hw]
    | name hn hnext hw =>
      rw [wordsOf_items_name_append hn (hr.isIdentifierPart_eq_false hnext), ih hw]

/-! ### Reading one expression -/

variable {close : Nat} {items : List PlacedItem} {words : List String}

theorem AreProper.exists_name {name : String} (hp : AreProper items)
    (hn : Text.isIdentifier name.toList = true) (h : wordsOf items = name :: words) :
    ∃ c others index rest, items = ⟨.name c others, index⟩ :: rest ∧
      String.ofList (c :: others) = name ∧ wordsOf rest = words ∧ AreProper rest := by
  obtain ⟨⟨item, index⟩, rest, rfl, hword, hwords⟩ := List.map_eq_cons_iff.1 h
  obtain ⟨hitem, hrest⟩ := List.forall_mem_cons.1 hp
  cases item with
  | name c others => exact ⟨c, others, index, rest, rfl, hword, hwords, hrest⟩
  | mark c =>
    -- a mark does not start an identifier
    have hmark : Text.isIdentifierStart c = false := hitem
    have hc : String.ofList [c] = name := hword
    rw [← hc, String.toList_ofList] at hn
    simp [Text.isIdentifier, hmark] at hn

theorem AreProper.exists_mark {c : Char} (hp : AreProper items)
    (hc : Text.isIdentifierStart c = false) (h : wordsOf items = String.singleton c :: words) :
    ∃ index rest, items = ⟨.mark c, index⟩ :: rest ∧ wordsOf rest = words ∧ AreProper rest := by
  obtain ⟨⟨item, index⟩, rest, rfl, hword, hwords⟩ := List.map_eq_cons_iff.1 h
  obtain ⟨hitem, hrest⟩ := List.forall_mem_cons.1 hp
  cases item with
  | name d others =>
    obtain ⟨hd, -⟩ := Bool.and_eq_true_iff.1 hitem
    have hcharacters : d :: others = [c] := String.ofList_injective hword
    obtain ⟨rfl, -⟩ := List.cons.inj hcharacters
    rw [hc] at hd
    cases hd
  | mark d =>
    have hcharacters : [d] = [c] := String.ofList_injective hword
    obtain ⟨rfl, -⟩ := List.cons.inj hcharacters
    exact ⟨index, rest, rfl, hwords, hrest⟩

theorem readEnd_eq_ok_iff : readEnd items = .ok () ↔ items = [] := by
  cases items <;> simp [readEnd]

theorem words_of_readSegments {segments : List String} (hp : AreProper items)
    (h : readSegments close items = .ok segments) :
    (∀ segment ∈ segments, Text.isIdentifier segment.toList = true) ∧
      wordsOf items = segments.flatMap fun segment => [".", segment] := by
  fun_induction readSegments close items generalizing segments with
  | case1 _ c others _ rest ih =>
    obtain ⟨later, hl, rfl⟩ := Except.map_eq_ok_iff.1 h
    obtain ⟨-, hrest⟩ := List.forall_mem_cons.1 hp
    obtain ⟨hname, hrest⟩ := List.forall_mem_cons.1 hrest
    obtain ⟨hsegments, hwords⟩ := ih hrest hl
    refine ⟨List.forall_mem_cons.2 ⟨?_, hsegments⟩, ?_⟩
    · rw [String.toList_ofList]
      exact hname
    · rw [List.flatMap_cons, ← hwords]
      rfl
  | case2 => cases h
  | case3 rest =>
    obtain ⟨_, hend, rfl⟩ := Except.map_eq_ok_iff.1 h
    obtain rfl := readEnd_eq_ok_iff.1 hend
    exact ⟨by simp, rfl⟩

theorem readSegments_of_words {segments : List String} (hp : AreProper items)
    (hs : ∀ segment ∈ segments, Text.isIdentifier segment.toList = true)
    (h : wordsOf items = segments.flatMap fun segment => [".", segment]) :
    readSegments close items = .ok segments := by
  induction segments generalizing items with
  | nil =>
    obtain rfl := List.map_eq_nil_iff.1 h
    rfl
  | cons segment segments ih =>
    obtain ⟨hsegment, hsegments⟩ := List.forall_mem_cons.1 hs
    obtain ⟨_, rest, rfl, h, hp⟩ := hp.exists_mark (c := '.') (by decide) h
    obtain ⟨c, others, _, rest, rfl, hname, h, hp⟩ := hp.exists_name hsegment h
    rw [readSegments, ih hp hsegments h, hname]
    rfl

theorem words_of_readArguments {arguments : List String} (hp : AreProper items)
    (h : readArguments close items = .ok arguments) :
    (∀ argument ∈ arguments, Text.isIdentifier argument.toList = true) ∧ arguments ≠ [] ∧
      wordsOf items = arguments.intersperse "," ++ [")"] := by
  fun_induction readArguments close items generalizing arguments with
  | case1 c others _ _ rest ih =>
    obtain ⟨later, hl, rfl⟩ := Except.map_eq_ok_iff.1 h
    obtain ⟨hname, hrest⟩ := List.forall_mem_cons.1 hp
    obtain ⟨-, hrest⟩ := List.forall_mem_cons.1 hrest
    obtain ⟨harguments, hne, hwords⟩ := ih hrest hl
    refine ⟨List.forall_mem_cons.2 ⟨?_, harguments⟩, by simp, ?_⟩
    · rw [String.toList_ofList]
      exact hname
    · obtain ⟨next, later, rfl⟩ := List.exists_cons_of_ne_nil hne
      rw [List.intersperse_cons_cons, List.cons_append, List.cons_append, ← hwords]
      rfl
  | case2 c others _ _ rest =>
    obtain ⟨_, hend, rfl⟩ := Except.map_eq_ok_iff.1 h
    obtain rfl := readEnd_eq_ok_iff.1 hend
    obtain ⟨hname, -⟩ := List.forall_mem_cons.1 hp
    refine ⟨List.forall_mem_cons.2 ⟨?_, by simp⟩, by simp, rfl⟩
    rw [String.toList_ofList]
    exact hname
  | case3 | case4 | case5 => cases h

theorem readArguments_of_words {arguments : List String} (hp : AreProper items)
    (hne : arguments ≠ [])
    (ha : ∀ argument ∈ arguments, Text.isIdentifier argument.toList = true)
    (h : wordsOf items = arguments.intersperse "," ++ [")"]) :
    readArguments close items = .ok arguments := by
  induction arguments generalizing items with
  | nil => exact absurd rfl hne
  | cons argument arguments ih =>
    obtain ⟨hargument, harguments⟩ := List.forall_mem_cons.1 ha
    cases arguments with
    | nil =>
      obtain ⟨c, others, _, rest, rfl, hname, h, hp⟩ := hp.exists_name hargument h
      obtain ⟨_, rest, rfl, h, -⟩ := hp.exists_mark (c := ')') (by decide) h
      obtain rfl := List.map_eq_nil_iff.1 h
      rw [readArguments, hname]
      rfl
    | cons next arguments =>
      obtain ⟨c, others, _, rest, rfl, hname, h, hp⟩ := hp.exists_name hargument h
      obtain ⟨_, rest, rfl, h, hp⟩ := hp.exists_mark (c := ',') (by decide) h
      rw [readArguments, ih hp (by simp) harguments h, hname]
      rfl

theorem words_of_readExpression {e : Expression} (hp : AreProper items)
    (h : readExpression close items = .ok e) : e.IsBracketed ∧ wordsOf items = e.words := by
  have hname : ∀ {c others index rest}, AreProper (⟨.name c others, index⟩ :: rest) →
      Text.isIdentifier (String.ofList (c :: others)).toList = true := by
    intro c others index rest hp
    rw [String.toList_ofList]
    exact (List.forall_mem_cons.1 hp).1
  unfold readExpression at h
  split at h
  · obtain ⟨_, hend, rfl⟩ := Except.map_eq_ok_iff.1 h
    obtain rfl := readEnd_eq_ok_iff.1 hend
    exact ⟨⟨hname hp, by simp⟩, rfl⟩
  · next c others _ _ rest _ =>
    obtain ⟨arguments, ha, rfl⟩ := Except.map_eq_ok_iff.1 h
    have hrest : AreProper rest := fun item hm =>
      hp item (List.mem_cons_of_mem _ (List.mem_cons_of_mem _ hm))
    obtain ⟨harguments, -, hwords⟩ := words_of_readArguments hrest ha
    exact ⟨⟨hname hp, harguments⟩, congrArg (String.ofList (c :: others) :: "(" :: ·) hwords⟩
  · next c others _ rest _ _ =>
    obtain ⟨segments, hs, rfl⟩ := Except.map_eq_ok_iff.1 h
    obtain ⟨hsegments, hwords⟩ := words_of_readSegments (List.forall_mem_cons.1 hp).2 hs
    cases segments with
    | nil =>
      obtain rfl := List.map_eq_nil_iff.1 hwords
      exact ⟨hname hp, rfl⟩
    | cons segment segments =>
      exact ⟨⟨hname hp, by simp, hsegments⟩, congrArg (String.ofList (c :: others) :: ·) hwords⟩
  · cases h

theorem readExpression_of_words {e : Expression} (hp : AreProper items) (he : e.IsBracketed)
    (h : wordsOf items = e.words) : readExpression close items = .ok e := by
  cases e with
  | literal s => exact he.elim
  | «attribute» name =>
    obtain ⟨c, others, _, rest, rfl, rfl, h, -⟩ := hp.exists_name he h
    obtain rfl := List.map_eq_nil_iff.1 h
    rfl
  | path name segments =>
    obtain ⟨hn, hne, hs⟩ := he
    obtain ⟨c, others, _, rest, rfl, rfl, h, hp⟩ := hp.exists_name hn h
    have hread : readSegments close rest = .ok segments := readSegments_of_words hp hs h
    obtain ⟨segment, segments, rfl⟩ := List.exists_cons_of_ne_nil hne
    obtain ⟨_, rest, rfl, -, -⟩ := hp.exists_mark (c := '.') (by decide) h
    rw [readExpression, hread]
    · rfl
    · simp
    · simp
  | inclusion name arguments =>
    obtain ⟨hn, ha⟩ := he
    obtain ⟨c, others, _, rest, rfl, rfl, h, hp⟩ := hp.exists_name hn h
    obtain ⟨_, rest, rfl, h, hp⟩ := hp.exists_mark (c := '(') (by decide) h
    cases arguments with
    | nil =>
      obtain ⟨_, rest, rfl, h, -⟩ := hp.exists_mark (c := ')') (by decide) h
      obtain rfl := List.map_eq_nil_iff.1 h
      rfl
    | cons argument arguments =>
      have hread : readArguments close rest = .ok (argument :: arguments) :=
        readArguments_of_words hp (by simp) ha h
      -- the first argument stands where a parenthesis would close an empty list
      have hfirst : ∃ words, (argument :: arguments).intersperse "," ++ [")"] =
          argument :: words := by
        cases arguments <;> exact ⟨_, rfl⟩
      obtain ⟨words, hwords⟩ := hfirst
      rw [hwords] at h
      obtain ⟨d, letters, _, later, rfl, -⟩ := hp.exists_name (List.forall_mem_cons.1 ha).1 h
      rw [readExpression, hread]
      · rfl
      · simp

/-- Between brackets stand the words of an expression, with blanks around them. -/
theorem readExpression_items_eq_ok_iff {index : Nat} {content : List Char} {e : Expression} :
    readExpression close (Body.items index content) = .ok e ↔
      e.IsBracketed ∧ Spaced e.words content := by
  have hp := areProper_items index content
  constructor
  · intro h
    obtain ⟨he, hw⟩ := words_of_readExpression hp h
    exact ⟨he, hw ▸ spaced_items index content⟩
  · rintro ⟨he, hw⟩
    exact readExpression_of_words hp he (hw.wordsOf_items (areApart_words he) index)

/-! ### Reading the whole body -/

variable {index : Nat} {text run : List Char} {e : Expression} {expressions : List Expression}

/-- Behind the first pair of brackets, a body is read on. -/
theorem scanFrom_bracket {content : List Char} (hr : '<' ∉ run) (hc : '>' ∉ content)
    (later : List Char) : scanFrom index (run ++ '<' :: (content ++ '>' :: later)) =
      match readExpression (index + run.length + 1 + content.length)
        (Body.items (index + run.length + 1) content) with
      | .error fault => .error fault
      | .ok e => (scanFrom (index + run.length + 1 + content.length + 1) later).map
          fun expressions => literal run ++ e :: expressions := by
  have ho : Text.cutAt? '<' (run ++ '<' :: (content ++ '>' :: later)) =
      some (run, content ++ '>' :: later) := Text.cutAt?_eq_some_iff.2 ⟨rfl, hr⟩
  have hi : Text.cutAt? '>' (content ++ '>' :: later) = some (content, later) :=
    Text.cutAt?_eq_some_iff.2 ⟨rfl, hc⟩
  rw [scanFrom_eq, ho]
  dsimp only
  split
  · next hn =>
    rw [hi] at hn
    cases hn
  · next hs =>
    rw [hi] at hs
    cases hs
    rfl

/-- A body that can be read is literal text, or has an expression in front of a body that can be
read. -/
theorem cases_of_scanFrom (h : scanFrom index text = .ok expressions) :
    ('<' ∉ text ∧ expressions = literal text) ∨ ∃ run content later e rest,
      text = run ++ '<' :: (content ++ '>' :: later) ∧ '<' ∉ run ∧ '>' ∉ content ∧
      readExpression (index + run.length + 1 + content.length)
        (Body.items (index + run.length + 1) content) = .ok e ∧
      scanFrom (index + run.length + 1 + content.length + 1) later = .ok rest ∧
      expressions = literal run ++ e :: rest := by
  rw [scanFrom_eq] at h
  split at h
  · next ho =>
    cases h
    exact .inl ⟨Text.cutAt?_eq_none_iff.1 ho, rfl⟩
  · next run inner ho =>
    split at h
    · cases h
    · next content later hi =>
      dsimp only at h
      split at h
      · cases h
      · next e he =>
        obtain ⟨rest, hl, rfl⟩ := Except.map_eq_ok_iff.1 h
        obtain ⟨rfl, hr⟩ := Text.cutAt?_eq_some_iff.1 ho
        obtain ⟨rfl, hc⟩ := Text.cutAt?_eq_some_iff.1 hi
        exact .inr ⟨run, content, later, e, rest, rfl, hr, hc, he, hl, rfl⟩

/-- The body is literal text and expressions in brackets, in the order of the given expressions.
A run of literal text holds no opening bracket and counts only if it is not empty; a pair of
brackets ends at the first closing one, and holds the words of its expression. -/
inductive Spells : List Expression → List Char → Prop
  | run {run : List Char} : '<' ∉ run → Spells (literal run) run
  | bracket {run content later : List Char} {e : Expression} {expressions : List Expression} :
      '<' ∉ run → '>' ∉ content → e.IsBracketed → Spaced e.words content →
      Spells expressions later →
      Spells (literal run ++ e :: expressions) (run ++ '<' :: (content ++ '>' :: later))

theorem scanFrom_eq_ok_iff_spells : scanFrom index text = .ok expressions ↔
    Spells expressions text := by
  constructor
  · intro h
    induction hn : text.length using Nat.strongRecOn generalizing index text expressions with
    | _ length ih =>
      rcases cases_of_scanFrom h with ⟨hr, rfl⟩ |
        ⟨run, content, later, e, rest, rfl, hr, hc, he, hl, rfl⟩
      · exact .run hr
      · have hshort : later.length < length := by
          rw [← hn]
          simp only [List.length_append, List.length_cons]
          omega
        obtain ⟨hbracketed, hwords⟩ := readExpression_items_eq_ok_iff.1 he
        exact .bracket hr hc hbracketed hwords (ih _ hshort hl rfl)
  · intro h
    induction h generalizing index with
    | run hr => exact scanFrom_of_not_mem hr
    | bracket hr hc hbracketed hwords _ ih =>
      exact scanFrom_of_expression hr hc
        (readExpression_items_eq_ok_iff.2 ⟨hbracketed, hwords⟩) ih

/-! ### Printing expressions -/

/-- The literals are those of a body: none is empty or holds an opening bracket, and no two of them
are neighbours. -/
structure IsNormal (expressions : List Expression) : Prop where
  literal_ne : ∀ s, .literal s ∈ expressions → s ≠ "" ∧ '<' ∉ s.toList
  apart : expressions.IsChain fun a b => ¬(a.IsLiteral ∧ b.IsLiteral)

/-- The text shows the expressions one after the other: literals as they stand, and the other ones
in brackets, with any blanks around their words. -/
inductive Prints : List Expression → List Char → Prop
  | nil : Prints [] []
  | plain {s : String} {rest : List Char} {expressions : List Expression} :
      Prints expressions rest → Prints (.literal s :: expressions) (s.toList ++ rest)
  | bracket {content rest : List Char} {e : Expression} {expressions : List Expression} :
      e.IsBracketed → Spaced e.words content → Prints expressions rest →
      Prints (e :: expressions) ('<' :: (content ++ '>' :: rest))

theorem IsNormal.bracket_cons (he : e.IsBracketed) (h : IsNormal expressions) :
    IsNormal (e :: expressions) := by
  have hne : ∀ s, .literal s ≠ e := by
    rintro s rfl
    exact he
  refine ⟨fun s hm => h.literal_ne s ((List.mem_cons.1 hm).resolve_left (hne s)), ?_⟩
  exact List.isChain_cons.2 ⟨fun _ _ hl => he.not_isLiteral hl.1, h.apart⟩

/-- A run of literal text goes in front of anything but a literal. -/
theorem IsNormal.literal_append (hr : '<' ∉ run)
    (hhead : ∀ e ∈ expressions.head?, ¬e.IsLiteral) (h : IsNormal expressions) :
    IsNormal (literal run ++ expressions) := by
  cases run with
  | nil => exact h
  | cons c run =>
    refine ⟨fun s hm => ?_, List.isChain_cons.2 ⟨fun e he hl => hhead e he hl.2, h.apart⟩⟩
    rcases List.mem_cons.1 hm with hs | hm
    · obtain rfl : s = String.ofList (c :: run) := Expression.literal.inj hs
      refine ⟨fun hempty => ?_, by rwa [String.toList_ofList]⟩
      have := congrArg String.toList hempty
      simp at this
    · exact h.literal_ne s hm

theorem isNormal_nil : IsNormal [] := ⟨by simp, .nil⟩

theorem Prints.literal_append (run : List Char) (h : Prints expressions text) :
    Prints (literal run ++ expressions) (run ++ text) := by
  cases run with
  | nil => exact h
  | cons c run =>
    have hp := Prints.plain (s := String.ofList (c :: run)) h
    rwa [String.toList_ofList] at hp

theorem Spells.isNormal_and_prints (h : Spells expressions text) :
    IsNormal expressions ∧ Prints expressions text := by
  induction h with
  | @run run hr =>
    have hn := isNormal_nil.literal_append hr (by simp)
    have hp := Prints.nil.literal_append run
    rw [List.append_nil] at hn
    rw [List.append_nil, List.append_nil] at hp
    exact ⟨hn, hp⟩
  | @bracket run _ _ e _ hr _ he hw _ ih =>
    obtain ⟨hn, hp⟩ := ih
    refine ⟨(hn.bracket_cons he).literal_append hr ?_, (Prints.bracket he hw hp).literal_append run⟩
    rintro _ ⟨⟩
    exact he.not_isLiteral

/-- A run of literal text goes in front of a body that starts with no literal. -/
theorem Spells.literal_append (hr : '<' ∉ run)
    (hhead : ∀ e ∈ expressions.head?, ¬e.IsLiteral) (h : Spells expressions text) :
    Spells (literal run ++ expressions) (run ++ text) := by
  have hempty : ∀ front rest, (∀ e ∈ (literal front ++ rest).head?, ¬e.IsLiteral) →
      front = [] := by
    intro front rest hf
    cases front with
    | nil => rfl
    | cons c front => exact absurd trivial (hf _ rfl)
  cases h with
  | run =>
    obtain rfl := hempty text [] (by simpa using hhead)
    simpa [literal] using Spells.run hr
  | @bracket front _ _ _ _ _ hc he hw hlater =>
    obtain rfl := hempty front _ hhead
    exact .bracket hr hc he hw hlater

/-- Words and blanks hold no closing bracket. -/
theorem Spaced.gt_not_mem (h : Spaced words text) (ha : AreApart words) : '>' ∉ text := by
  have hblank : ∀ gap : List Char, (∀ c ∈ gap, Text.isBlank c = true) → '>' ∉ gap := by
    intro gap hg hm
    exact absurd (hg _ hm) (by decide)
  induction h with
  | nil hg => exact hblank _ hg
  | cons hg _ ih =>
    have hword : ∀ word words, AreApart (word :: words) → '>' ∉ word.toList ∧ AreApart words := by
      intro word words ha
      cases ha with
      | mark hm hw =>
        refine ⟨?_, hw⟩
        have hmarks : ∀ mark ∈ marks, '>' ∉ mark.toList := by decide
        exact hmarks word hm
      | name hn _ hw =>
        refine ⟨fun hm => ?_, hw⟩
        cases hl : word.toList with
        | nil => simp [hl] at hm
        | cons c letters =>
          rw [hl] at hn hm
          obtain ⟨hc, hletters⟩ := Bool.and_eq_true_iff.1 hn
          rcases List.mem_cons.1 hm with rfl | hm
          · exact absurd hc (by decide)
          · exact absurd (List.all_eq_true.1 hletters _ hm) (by decide)
    obtain ⟨hw, ha⟩ := hword _ _ ha
    simp [hblank _ hg, hw, ih ha]

theorem literal_toList {s : String} (h : s ≠ "") : literal s.toList = [.literal s] := by
  have hs : String.ofList s.toList = s := String.ofList_toList
  cases hl : s.toList with
  | nil => exact absurd (String.toList_eq_nil_iff.1 hl) h
  | cons c run =>
    show [Expression.literal (String.ofList (c :: run))] = _
    rw [← hl, hs]

theorem Prints.spells (h : Prints expressions text) (hn : IsNormal expressions) :
    Spells expressions text := by
  induction h with
  | nil => exact .run List.not_mem_nil
  | @plain s rest expressions _ ih =>
    obtain ⟨hne, hlt⟩ := hn.literal_ne s List.mem_cons_self
    obtain ⟨hhead, hapart⟩ := List.isChain_cons.1 hn.apart
    have hrest := ih ⟨fun s hm => hn.literal_ne s (List.mem_cons_of_mem _ hm), hapart⟩
    have hspells := hrest.literal_append hlt fun e he hl => hhead e he ⟨trivial, hl⟩
    rwa [literal_toList hne] at hspells
  | bracket he hw _ ih =>
    have hrest := ih ⟨fun s hm => hn.literal_ne s (List.mem_cons_of_mem _ hm), hn.apart.tail⟩
    exact .bracket List.not_mem_nil (hw.gt_not_mem (areApart_words he)) he hw hrest

/-- **Reading a body follows the grammar.**  A body reads as a list of expressions exactly when it
is made of runs of literal text and of expressions in brackets that spell the list.  The lists that
bodies read as are those whose literals are not empty, hold no opening bracket and have no literal
next to them; and a body reads as such a list exactly when it prints the list, with whatever blanks
around the words. -/
theorem scan_eq_ok_iff_grammar (body : List Char) (expressions : List Expression) :
    (scan body = .ok expressions ↔ Spells expressions body) ∧
      (scan body = .ok expressions ↔ IsNormal expressions ∧ Prints expressions body) := by
  have hscan : scan body = .ok expressions ↔ Spells expressions body := scanFrom_eq_ok_iff_spells
  refine ⟨hscan, hscan.trans ⟨Spells.isNormal_and_prints, fun ⟨hn, hp⟩ => hp.spells hn⟩⟩

/-- A closing bracket is literal text where no bracket is open. -/
example : scan "a><b .\tc>< d( e ,f\n) >".toList =
    .ok [.literal "a>", .path "b" ["c"], .inclusion "d" ["e", "f"]] := by
  cbv

end Body

end TextTemplate
