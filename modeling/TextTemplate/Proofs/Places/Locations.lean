import Mathlib.Data.List.Induction
import Mathlib.Data.Nat.Basic
import Mathlib.Data.Prod.Lex
import TextTemplate.Text.Source

/-!
# Locations are counted from the text

A source finds the location of an index by a search in its table of line starts.  The search finds
what a reader would count in the text (`Source.upperBound_lineStarts`): the line is the number of
ends of line in front of the index, and the column is the distance from the start of that line
(`Source.location_eq`).  Inside the text this is the number of characters behind the last end of
line (`Source.location_eq_behind`).  Locations follow each other as the indices do
(`Source.strictMono_location`), so no two indices share one (`Source.location_injective`).
-/

namespace TextTemplate

namespace Text

/-- The index just behind the last end of line of a front, or zero if there is none. -/
def lastLineStart (front : List Char) : Nat :=
  front.length - (front.reverse.takeWhile (· ≠ '\n')).length

/-- The location behind a front of a text, as a reader counts it. -/
def Location.behind (front : List Char) : Location :=
  ⟨front.count '\n' + 1, (front.reverse.takeWhile (· ≠ '\n')).length⟩

@[simp] theorem lastLineStart_append_singleton (front : List Char) (c : Char) :
    lastLineStart (front ++ [c]) = if c = '\n' then front.length + 1 else lastLineStart front := by
  by_cases h : c = '\n'
  · simp [lastLineStart, h]
  · simp [lastLineStart, h]

theorem lastLineStart_le (front : List Char) : lastLineStart front ≤ front.length := Nat.sub_le _ _

/-- Characters of the same line leave its start as it is. -/
theorem lastLineStart_append (front : List Char) {line : List Char} (h : '\n' ∉ line) :
    lastLineStart (front ++ line) = lastLineStart front := by
  induction line using List.reverseRecOn with
  | nil => rw [List.append_nil]
  | append_singleton line c ih =>
    simp only [List.mem_append, List.mem_singleton, not_or] at h
    obtain ⟨hline, hc⟩ := h
    rw [← List.append_assoc, lastLineStart_append_singleton, if_neg (Ne.symm hc), ih hline]

/-- The index at which the last line of a text starts: just behind the last end of line, or zero if
there is none. -/
inductive StartsLastLine : List Char → Nat → Prop
  | only {line : List Char} : '\n' ∉ line → StartsLastLine line 0
  | behind (front : List Char) {line : List Char} :
      '\n' ∉ line → StartsLastLine (front ++ '\n' :: line) (front.length + 1)

theorem startsLastLine (front : List Char) : StartsLastLine front (lastLineStart front) := by
  induction front using List.reverseRecOn with
  | nil => exact .only List.not_mem_nil
  | append_singleton front c ih =>
    rw [lastLineStart_append_singleton]
    split
    · next hc =>
      rw [hc]
      exact .behind front List.not_mem_nil
    · next hc =>
      generalize lastLineStart front = start at ih
      cases ih with
      | only hline => exact .only (by simp [hline, Ne.symm hc])
      | behind front hline =>
        rw [List.append_assoc, List.cons_append]
        exact .behind front (by simp [hline, Ne.symm hc])

/-! ### The table of line starts -/

theorem mem_lineStartsFrom_bounds {i start : Nat} {text : List Char}
    (h : start ∈ lineStartsFrom i text) : i < start ∧ start ≤ i + text.length := by
  fun_induction lineStartsFrom i text with
  | case1 => simp at h
  | case2 i rest ih =>
    rw [List.length_cons]
    rcases List.mem_cons.1 h with rfl | h
    · omega
    · have := ih h
      omega
  | case3 i c rest _ ih =>
    rw [List.length_cons]
    have := ih h
    omega

theorem length_lineStartsFrom (i : Nat) (text : List Char) :
    (lineStartsFrom i text).length = text.count '\n' := by
  fun_induction lineStartsFrom i text with
  | case1 => rfl
  | case2 i rest ih => simp [ih]
  | case3 i c rest hc ih => simp [ih, hc]

theorem lineStartsFrom_append (i : Nat) (front back : List Char) :
    lineStartsFrom i (front ++ back) =
      lineStartsFrom i front ++ lineStartsFrom (i + front.length) back := by
  induction front generalizing i with
  | nil => rfl
  | cons c front ih =>
    have hlength : i + (c :: front).length = i + 1 + front.length := by
      rw [List.length_cons]
      omega
    rw [List.cons_append, lineStartsFrom, lineStartsFrom, ih, hlength]
    split <;> rfl

theorem getLast?_lineStartsFrom (front : List Char) :
    (0 :: lineStartsFrom 0 front).getLast? = some (lastLineStart front) := by
  induction front using List.reverseRecOn with
  | nil => rfl
  | append_singleton front c ih =>
    rw [lastLineStart_append_singleton, lineStartsFrom_append]
    by_cases h : c = '\n'
    · simp [lineStartsFrom, h, List.getLast?_cons]
    · simpa [lineStartsFrom, h] using ih

namespace Source

/-- The table lists the line starts in front of an index before those behind it. -/
theorem toList_lineStarts (source : Source) (index : Nat) :
    source.lineStarts.toList = (0 :: lineStartsFrom 0 (source.text.take index)) ++
      lineStartsFrom (source.text.take index).length (source.text.drop index) := by
  have happend := lineStartsFrom_append 0 (source.text.take index) (source.text.drop index)
  rw [List.take_append_drop, Nat.zero_add] at happend
  rw [source.lineStarts_eq, happend, List.cons_append]

/-- The search finds as many line starts as a reader counts in front of the index. -/
theorem upperBound_lineStarts (source : Source) (index : Nat) :
    upperBound source.lineStarts index =
      (0 :: lineStartsFrom 0 (source.text.take index)).length := by
  refine upperBound_append (source.toList_lineStarts index) (fun start hs => ?_)
    (fun start hs => ?_)
  · have hlength := List.length_take_le index source.text
    rcases List.mem_cons.1 hs with rfl | hs
    · exact Nat.zero_le index
    · have := mem_lineStartsFrom_bounds hs
      omega
  · -- behind the end of the text no line starts
    have hbounds := mem_lineStartsFrom_bounds hs
    rw [List.length_take, List.length_drop] at hbounds
    omega

/-- **The location of an index is counted from the text in front of it.**  Past the end, the column
goes on from the start of the last line. -/
theorem location_eq (source : Source) (index : Nat) :
    source.location index =
      ⟨(source.text.take index).count '\n' + 1,
        index - lastLineStart (source.text.take index)⟩ := by
  have hline := source.upperBound_lineStarts index
  have hstart : source.lineStarts[(0 :: lineStartsFrom 0 (source.text.take index)).length - 1]? =
      some (lastLineStart (source.text.take index)) := by
    rw [← Array.getElem?_toList, source.toList_lineStarts index,
      List.getElem?_append_left (Nat.sub_one_lt (by simp)), ← List.getLast?_eq_getElem?,
      getLast?_lineStartsFrom]
  obtain ⟨_, hget⟩ := Array.getElem?_eq_some_iff.1 hstart
  simp only [location, hline, hget]
  rw [List.length_cons, length_lineStartsFrom]

/-- Lines are counted from one. -/
theorem one_le_line_location (source : Source) (index : Nat) :
    1 ≤ (source.location index).line := by
  rw [location_eq]
  exact Nat.le_add_left 1 _

theorem location_eq_behind {source : Source} {index : Nat} (h : index ≤ source.length) :
    source.location index = Location.behind (source.text.take index) := by
  have hlength : (source.text.take index).length = index := List.length_take_of_le h
  have hle := (List.takeWhile_sublist (· ≠ '\n') (l := (source.text.take index).reverse)).length_le
  rw [List.length_reverse, hlength] at hle
  rw [location_eq, lastLineStart, hlength, Nat.sub_sub_self hle, Location.behind]

/-- A later index is on a later line, or further on in the same line. -/
theorem strictMono_location (source : Source) :
    StrictMono fun index => toLex ((source.location index).line, (source.location index).column) := by
  intro first last h
  obtain ⟨length, rfl⟩ := Nat.exists_eq_add_of_le (Nat.le_of_lt h)
  rw [Prod.Lex.toLex_lt_toLex, location_eq, location_eq, List.take_add, List.count_append]
  dsimp only
  by_cases hm : '\n' ∈ (source.text.drop first).take length
  · have hpos := List.count_pos_iff.2 hm
    exact .inl (by omega)
  · -- no line ends between the two, so their columns are counted from the same start
    rw [List.count_eq_zero.2 hm, lastLineStart_append _ hm]
    have hle := lastLineStart_le (source.text.take first)
    rw [List.length_take] at hle
    exact .inr (by omega)

/-- Different indices have different locations. -/
theorem location_injective (source : Source) : Function.Injective source.location :=
  fun _ _ h => source.strictMono_location.injective
    (congrArg (fun location => toLex (location.line, location.column)) h)

/-- A range that is not empty has two locations. -/
theorem span_ends_ne (source : Source) {first last : Nat} (h : first < last) :
    ((source.span ⟨first, last⟩).startLine, (source.span ⟨first, last⟩).startColumn) ≠
      ((source.span ⟨first, last⟩).endLine, (source.span ⟨first, last⟩).endColumn) := by
  intro he
  obtain ⟨hline, hcolumn⟩ := Prod.mk.inj he
  have hlocation : source.location first = source.location last := by
    rw [Location.mk.injEq]
    exact ⟨Int.ofNat.inj hline, Int.ofNat.inj hcolumn⟩
  exact Nat.ne_of_lt h (source.location_injective hlocation)

end Source

end Text

end TextTemplate
