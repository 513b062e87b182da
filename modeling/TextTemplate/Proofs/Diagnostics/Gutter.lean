import Mathlib
import TextTemplate.Proofs.Diagnostics

/-!
# Where the marks of a diagnostic stand

The marks that point at a range over several lines form a gutter: the arrow and the bars behind the
source lines, and the last bars of the two rows under them, are meant to stand one under the other
in the column in which the range starts.

Behind the start a row has a mark unless its line is too long for one (`mark?_eq_none_iff`), and a
mark follows its line filled up to the column (`Row.text_of_mark`).  But only a line that goes on
past the column after the start counts as too long.  A line that ends in just this column has its
mark one place further to the right, so the gutter is straight just when no such line is shown
behind the start (`Diagnostic.gutter_is_straight_iff_no_line_ends_in_it`).
-/

namespace TextTemplate

namespace Diagnostic

/-- The mark that the row puts after its line. -/
def Row.mark? : Row → Option Char
  | .plain _ => none
  | .arrow _ => some '^'
  | .bar _ => some '|'

/-- The last character of a line as written is the mark, and it stands in the given column. -/
def EndsIn (column : Int) (mark : Char) (written : Line) : Prop :=
  written.getLast? = some mark ∧ (written.length : Int) = column + 1

instance (column : Int) (mark : Char) (written : Line) : Decidable (EndsIn column mark written) :=
  inferInstanceAs (Decidable (_ ∧ _))

variable {span : Text.Span} {column count : Int} {mark c : Char} {row : Row} {line : Line}
  {lines : List Line}

/-! ### Marks behind source lines -/

@[simp] theorem length_repeated (c : Char) (count : Int) :
    (repeated c count).length = count.toNat := List.length_replicate

theorem length_pad (line : Line) (width : Int) :
    ((pad line width).length : Int) = max (line.length : Int) width := by
  rw [pad, List.length_append, length_repeated]
  omega

theorem Row.text_of_mark (h : row.mark? = some mark) :
    row.text column = pad row.line column ++ [mark] := by
  cases row <;> cases h <;> rfl

/-- A mark stands behind its line, and not before the column. -/
theorem endsIn_text_iff (h : row.mark? = some mark) {place : Int} :
    EndsIn place mark (row.text column) ↔ max (row.line.length : Int) column = place := by
  have hlength := length_pad row.line column
  simp only [EndsIn, Row.text_of_mark h, List.getLast?_append, List.getLast?_singleton,
    Option.some_or, true_and, List.length_append, List.length_singleton]
  omega

/-- A row behind the start has a mark unless its line is too long for one. -/
theorem mark?_eq_none_iff (h : row ∈ arrowRows column count lines) :
    row.mark? = none ↔ isLong column row.line = true := by
  induction lines generalizing count with
  | nil => cases h
  | cons line rest ih =>
    cases hlong : isLong column line with
    | true =>
      simp only [arrowRows, hlong, if_true, List.mem_cons] at h
      rcases h with rfl | h
      · simp [Row.mark?, Row.line, hlong]
      · exact ih h
    | false =>
      simp only [arrowRows, hlong, Bool.false_eq_true, if_false, List.mem_cons] at h
      rcases h with rfl | h
      · simp [Row.mark?, Row.line, hlong]
      · obtain ⟨other, -, rfl⟩ := List.mem_map.1 h
        cases hother : isLong column other <;> simp [Row.mark?, Row.line, hother]

/-- The rows behind the start. -/
theorem drop_rows (span : Text.Span) (lines : List Line) :
    (rows span lines).drop (opening span) =
      arrowRows span.startColumn (span.endLine - span.startLine - 1)
        (lines.drop (opening span)) := by
  rcases Nat.lt_or_ge lines.length (opening span) with hlt | hle
  · have hnone : lines.drop (opening span) = [] := List.drop_eq_nil_of_le (Nat.le_of_lt hlt)
    rw [rows, ← opening, hnone]
    simp [arrowRows]
  · refine List.drop_left' ?_
    rw [List.length_map, List.length_take]
    exact Nat.min_eq_left hle

/-- A row with a mark stands behind the start. -/
theorem mem_drop_rows (hrow : row ∈ rows span lines) (h : row.mark? = some mark) :
    row ∈ (rows span lines).drop (opening span) := by
  rw [drop_rows]
  rcases List.mem_append.1 hrow with hfirst | hbehind
  · obtain ⟨line, -, rfl⟩ := List.mem_map.1 hfirst
    cases h
  · exact hbehind

theorem isLong_eq_false_iff : isLong column line = false ↔ (line.length : Int) ≤ column + 1 := by
  simp [isLong]

theorem length_le_of_mark (hrow : row ∈ rows span lines) (h : row.mark? = some mark) :
    (row.line.length : Int) ≤ span.startColumn + 1 := by
  have hbehind := mem_drop_rows hrow h
  rw [drop_rows] at hbehind
  rw [← isLong_eq_false_iff, ← Bool.not_eq_true, ← mark?_eq_none_iff hbehind, h]
  exact Option.some_ne_none mark

/-! ### The rows of marks -/

/-- Where the range ends no further to the right than it starts, one caret stands under its end. -/
theorem caretRow_eq (h : span.endColumn ≤ span.startColumn) : caretRow span =
    repeated ' ' (span.endColumn - 1) ++ '^' :: repeated ' ' (span.startColumn - span.endColumn) ++
      ['|'] := by
  have hwidth : caretWidth span = 1 := by unfold caretWidth; omega
  simp [caretRow, hwidth, repeated]

theorem bracketRow_eq (h : span.endColumn ≤ span.startColumn) : bracketRow span =
    repeated ' ' (span.endColumn - 1) ++ '|' :: repeated '-' (span.startColumn - span.endColumn) ++
      ['|'] := by
  have hwidth : caretWidth span = 1 := by unfold caretWidth; omega
  simp [bracketRow, hwidth, repeated]

/-- What stands between a mark under the end of the range and the last bar fills the columns up to
that of the start. -/
theorem endsIn_of_marks (hend : 1 ≤ span.endColumn) (h : span.endColumn ≤ span.startColumn)
    (first fill : Char) :
    EndsIn span.startColumn mark (repeated ' ' (span.endColumn - 1) ++
      first :: repeated fill (span.startColumn - span.endColumn) ++ [mark]) := by
  refine ⟨List.getLast?_concat, ?_⟩
  simp only [List.length_append, List.length_cons, List.length_nil, length_repeated]
  omega

/-- An item that occurs once is found in one place. -/
theorem getElem?_append_cons_eq_some_iff {α : Type} {a : α} {before after : List α} {i : Nat}
    (hbefore : a ∉ before) (hafter : a ∉ after) :
    (before ++ a :: after)[i]? = some a ↔ i = before.length := by
  constructor
  · intro h
    rcases Nat.lt_trichotomy i before.length with hlt | heq | hgt
    · rw [List.getElem?_append_left hlt] at h
      exact absurd (List.mem_of_getElem? h) hbefore
    · exact heq
    · obtain ⟨k, rfl⟩ := Nat.exists_eq_add_of_lt hgt
      rw [List.getElem?_append_right (by omega), Nat.add_assoc, Nat.add_sub_cancel_left,
        List.getElem?_cons_succ] at h
      exact absurd (List.mem_of_getElem? h) hafter
  · rintro rfl
    simp

theorem getElem?_caretRow_eq_caret_iff (hend : 1 ≤ span.endColumn)
    (h : span.endColumn ≤ span.startColumn) {i : Nat} :
    (caretRow span)[i]? = some '^' ↔ (i : Int) = span.endColumn - 1 := by
  rw [caretRow_eq h, List.append_assoc, List.cons_append,
    getElem?_append_cons_eq_some_iff (by simp [repeated]) (by simp [repeated]), length_repeated]
  omega

/-- **The gutter is straight, but for lines that end in it.**  Let a range end no further to the
right than it starts, and not in front of the first column.  In its diagnostic over several lines,

* a mark behind a source line stands in the column of the start, or one to the right of it when the
  line has just one character more than the columns before the start;
* all of them stand in that column just when no line shown behind the start is as long as that;
* both rows of marks end with a bar in that column, the second one in front of the message;
* the one caret of the first row stands under the last character of the range. -/
theorem gutter_is_straight_iff_no_line_ends_in_it (span : Text.Span) (message source : String)
    (hend : 1 ≤ span.endColumn) (hcolumn : span.endColumn ≤ span.startColumn) :
    let lines := sourceLines source.toList
    let column := span.startColumn
    let shown := rows span lines
    multiLine span message source = drawn span shown message ∧
      (∀ row ∈ shown, ∀ mark, row.mark? = some mark →
        EndsIn (if row.line.length = column + 1 then column + 1 else column) mark
          (row.text column)) ∧
      ((∀ row ∈ shown, ∀ mark, row.mark? = some mark → EndsIn column mark (row.text column)) ↔
        ∀ line ∈ (shown.map Row.line).drop (max span.startLine 1).toNat,
          (line.length : Int) ≠ column + 1) ∧
      EndsIn column '|' (caretRow span) ∧
      EndsIn column '|' (bracketRow span) ∧
      ∀ i : Nat, (caretRow span)[i]? = some '^' ↔ (i : Int) = span.endColumn - 1 := by
  intro lines column shown
  have hopening : opening span = (max span.startLine 1).toNat := by unfold opening; omega
  have hplace {row : Row} (hrow : row ∈ shown) {mark : Char} (hmark : row.mark? = some mark) :
      (row.line.length : Int) ≤ column + 1 := length_le_of_mark hrow hmark
  refine ⟨rfl, fun row hrow mark hmark => ?_, ⟨fun hstraight line hline heq => ?_, ?_⟩, ?_, ?_,
    fun i => getElem?_caretRow_eq_caret_iff hend hcolumn⟩
  · have := hplace hrow hmark
    rw [endsIn_text_iff hmark]
    omega
  · rw [← hopening, ← List.map_drop] at hline
    obtain ⟨row, hrow, rfl⟩ := List.mem_map.1 hline
    obtain ⟨mark, hmark⟩ : ∃ mark, row.mark? = some mark := by
      rw [← Option.isSome_iff_exists, Option.isSome_iff_ne_none, Ne,
        mark?_eq_none_iff (by rwa [← drop_rows]), Bool.not_eq_true, isLong_eq_false_iff, heq]
    have := (endsIn_text_iff hmark).1 (hstraight row (List.mem_of_mem_drop hrow) mark hmark)
    omega
  · intro hnone row hrow mark hmark
    have := hnone row.line (by
      rw [← hopening, ← List.map_drop]
      exact List.mem_map_of_mem (mem_drop_rows hrow hmark))
    have := hplace hrow hmark
    rw [endsIn_text_iff hmark]
    omega
  · rw [caretRow_eq hcolumn]
    exact endsIn_of_marks hend hcolumn '^' ' '
  · rw [bracketRow_eq hcolumn]
    exact endsIn_of_marks hend hcolumn '|' '-'

/-- An empty line takes the arrow, one that is too long takes no mark, and the last one the bar. -/
theorem gutter_is_straight_iff_no_line_ends_in_it_of_short_lines :
    let span : Text.Span := ⟨1, 15, 4, 2⟩
    let source := "static ref g \x7b (\n\n// the parameters of nothing\n ) ::= \"x\"\n\x7d"
    (1 ≤ span.endColumn ∧ span.endColumn ≤ span.startColumn) ∧
      multiLine span "expected identifier" source = "static ref g \x7b (\n               ^\n" ++
        "// the parameters of nothing\n ) ::= \"x\"     |\n ^             |\n" ++
        " |-------------| expected identifier" ∧
      (∀ row ∈ rows span (sourceLines source.toList), ∀ mark, row.mark? = some mark →
        EndsIn span.startColumn mark (row.text span.startColumn)) ∧
      EndsIn span.startColumn '|' (bracketRow span) := by
  intro span source
  have hshort : ∀ line ∈ ((rows span (sourceLines source.toList)).map Row.line).drop
      (max span.startLine 1).toNat, (line.length : Int) ≠ span.startColumn + 1 := by decide
  obtain ⟨-, -, hstraight, -, hbracket, -⟩ := gutter_is_straight_iff_no_line_ends_in_it span
    "expected identifier" source (by decide) (by decide)
  exact ⟨by decide, by decide, hstraight.2 hshort, hbracket⟩

end Diagnostic

namespace CompileError

open Diagnostic

theorem text_eq_multiLine {e : CompileError} (h : e.span.startLine < e.span.endLine) :
    e.text = multiLine e.span e.message e.source.toString :=
  if_neg fun hsame => Int.ne_of_lt h hsame.1

/-- The line behind the start has sixteen characters.  It takes the arrow, which stands one column
to the right of the opening parenthesis and of the other marks. -/
theorem text_has_a_mark_beside_the_gutter :
    ∃ e, compileStatic "static ref g \x7b (\n// no parameters\n ) ::= \"x\"\n\x7d" = .error e ∧
      e.span = ⟨1, 15, 3, 2⟩ ∧ e.text = multiLine e.span e.message e.source.toString ∧
      e.text = "static ref g \x7b (\n// no parameters^\n ) ::= \"x\"     |\n" ++
        " ^             |\n |-------------| expected identifier" ∧
      ¬ ∀ row ∈ rows e.span (sourceLines e.source.text), ∀ mark, row.mark? = some mark →
        EndsIn e.span.startColumn mark (row.text e.span.startColumn) := by
  refine ⟨⟨⟨.expected .identifier, ⟨15, 36⟩⟩, Text.Source.ofString
    "static ref g \x7b (\n// no parameters\n ) ::= \"x\"\n\x7d"⟩, by cbv, rfl,
    text_eq_multiLine (by decide), rfl, fun h => ?_⟩
  have harrow : .arrow "// no parameters".toList ∈ rows ⟨1, 15, 3, 2⟩
      (sourceLines "static ref g \x7b (\n// no parameters\n ) ::= \"x\"\n\x7d".toList) := by decide
  exact absurd ((endsIn_text_iff rfl).1 (h _ harrow '^' rfl)) (by decide)

end CompileError

end TextTemplate
