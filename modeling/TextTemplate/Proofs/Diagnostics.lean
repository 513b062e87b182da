import Mathlib
import TextTemplate.Compile
import TextTemplate.Proofs.Places.Locations

/-!
# What a diagnostic over several lines shows

The rows of such a diagnostic are the first lines of the source, each with the mark that its place
calls for (`Diagnostic.rows_eq`): none up to the line that takes the arrow, which is the first line
after the start of the span that is not too long (`Diagnostic.arrowIndex`), and a bar after it.  The
lines end with the span, or with the arrow when that stands further below.  Whatever the numbers of
the span, no line is lost or shown twice (`Diagnostic.multiLine_shows_the_first_lines`).

So a compile error whose span covers several lines shows its source up to the end of the span
unless all lines of the span after its first are too long, and lines follow it
(`CompileError.text_shows_the_source_up_to_the_end_or_the_arrow`).
-/

namespace TextTemplate

namespace Diagnostic

/-- The number of lines that are shown whatever follows: those up to the start of the span. -/
def opening (span : Text.Span) : Nat := max span.startLine.toNat 1

/-- The index of the line that takes the arrow, the first after the start that is not long. -/
def arrowIndex (span : Text.Span) (lines : List Line) : Nat :=
  opening span + ((lines.drop (opening span)).takeWhile (isLong span.startColumn)).length

/-- The row of the line at index `i`, where the arrow belongs to the line at index `arrow`. -/
def rowAt (column : Int) (arrow i : Nat) (line : Line) : Row :=
  if i < arrow then .plain line
  else if i = arrow then .arrow line
  else if isLong column line then .plain line
  else .bar line

/-- Rows of source lines as written, with the rows of marks and the message under them. -/
def drawn (span : Text.Span) (shown : List Row) (message : String) : String :=
  String.ofList (Text.joinWith '\n'
    (shown.map (Row.text span.startColumn) ++ [caretRow span, bracketRow span]) ++ [' ']) ++ message

variable {span : Text.Span} {column count : Int} {arrow i : Nat} {line : Line} {lines : List Line}

/-! ### Single rows -/

@[simp] theorem line_rowAt : (rowAt column arrow i line).line = line := by
  grind [rowAt, Row.line]

theorem rowAt_eq_arrow_iff {other : Line} :
    rowAt column arrow i line = .arrow other ↔ i = arrow ∧ line = other := by
  grind [rowAt]

/-- The row as written. -/
theorem text_rowAt : (rowAt column arrow i line).text column =
    if i < arrow then line
    else if i = arrow then pad line column ++ ['^']
    else if isLong column line then line
    else pad line column ++ ['|'] := by
  grind [rowAt, Row.text]

theorem rowAt_add (n : Nat) : rowAt column (n + arrow) (n + i) = rowAt column arrow i := by
  funext line
  simp [rowAt]

theorem rowAt_succ : rowAt column (arrow + 1) (i + 1) = rowAt column arrow i := by
  rw [Nat.add_comm arrow, Nat.add_comm i, rowAt_add]

/-! ### All rows -/

theorem barRows_eq : barRows column count lines =
    (lines.take count.toNat).mapIdx fun i => rowAt column 0 (i + 1) := by
  rw [barRows]
  refine List.ext_getElem (by simp) fun i _ _ => ?_
  simp [rowAt]

theorem map_plain_take_eq {n : Nat} (hn : n ≤ arrow) :
    (lines.take n).map .plain = (lines.take n).mapIdx (rowAt column arrow) := by
  refine List.ext_getElem (by simp) fun i hi _ => ?_
  have : i < arrow := by
    simp only [List.length_map, List.length_take] at hi
    omega
  simp [rowAt, this]

/-- Behind the start, the lines go on for `count` bars and the arrow, and at least to the arrow. -/
theorem arrowRows_eq (column count : Int) (lines : List Line) :
    let arrow := (lines.takeWhile (isLong column)).length
    arrowRows column count lines =
      (lines.take (max (count + 1).toNat (arrow + 1))).mapIdx (rowAt column arrow) := by
  induction lines generalizing count with
  | nil => simp [arrowRows]
  | cons line rest ih =>
    cases hlong : isLong column line with
    | true =>
      have hcount : max (count + 1).toNat ((rest.takeWhile (isLong column)).length + 1 + 1) =
          max (count - 1 + 1).toNat ((rest.takeWhile (isLong column)).length + 1) + 1 := by omega
      simp only [arrowRows, hlong, if_true, ih, List.takeWhile_cons, List.length_cons, hcount,
        List.take_succ_cons, List.mapIdx_cons, rowAt_succ]
      simp [rowAt]
    | false =>
      have hcount : max (count + 1).toNat (0 + 1) = count.toNat + 1 := by omega
      simp only [arrowRows, hlong, Bool.false_eq_true, if_false, barRows_eq, List.takeWhile_cons,
        List.length_nil, hcount, List.take_succ_cons, List.mapIdx_cons]
      simp [rowAt]

/-- The rows are the first lines of the text, to the end of the span or to the arrow, whichever is
further down, and the place of a line decides which mark it takes. -/
theorem rows_eq (span : Text.Span) (lines : List Line) :
    rows span lines =
      (lines.take (max (opening span + (span.endLine - span.startLine).toNat)
        (arrowIndex span lines + 1))).mapIdx
          (rowAt span.startColumn (arrowIndex span lines)) := by
  let passed := ((lines.drop (opening span)).takeWhile (isLong span.startColumn)).length
  let more := max (span.endLine - span.startLine).toNat (passed + 1)
  have harrow : arrowIndex span lines = opening span + passed := rfl
  have hbehind : arrowRows span.startColumn (span.endLine - span.startLine - 1)
        (lines.drop (opening span)) =
      ((lines.drop (opening span)).take more).mapIdx fun i =>
        rowAt span.startColumn (arrowIndex span lines)
          (i + (lines.take (opening span)).length) := by
    rw [arrowRows_eq, Int.sub_add_cancel]
    rcases Nat.lt_or_ge lines.length (opening span) with hlt | hle
    · rw [List.drop_eq_nil_of_le (Nat.le_of_lt hlt)]
      simp
    · simp only [List.length_take, Nat.min_eq_left hle, harrow, Nat.add_comm _ (opening span),
        rowAt_add]
      rfl
  calc rows span lines
    _ = (lines.take (opening span)).map .plain ++ arrowRows span.startColumn
          (span.endLine - span.startLine - 1) (lines.drop (opening span)) := rfl
    _ = (lines.take (opening span) ++ (lines.drop (opening span)).take more).mapIdx
          (rowAt span.startColumn (arrowIndex span lines)) := by
      rw [map_plain_take_eq (harrow ▸ Nat.le_add_right _ _), hbehind, List.mapIdx_append]
    _ = _ := by
      rw [← List.take_add, harrow, Nat.add_assoc, ← Nat.add_max_add_left]

/-- The source lines of the rows. -/
theorem map_line_rows (span : Text.Span) (lines : List Line) :
    (rows span lines).map Row.line =
      lines.take (max (opening span + (span.endLine - span.startLine).toNat)
        (arrowIndex span lines + 1)) := by
  rw [rows_eq]
  refine List.ext_getElem (by simp) fun i _ _ => ?_
  simp

/-- The arrow stands on one line, if that line exists. -/
theorem getElem?_rows_eq_arrow_iff : (rows span lines)[i]? = some (.arrow line) ↔
    i = arrowIndex span lines ∧ lines[i]? = some line := by
  simp only [rows_eq, List.getElem?_mapIdx, Option.map_eq_some_iff, rowAt_eq_arrow_iff,
    List.getElem?_take]
  grind

theorem length_takeWhile_lt_iff {α : Type} {p : α → Bool} {l : List α} {n : Nat}
    (hn : n ≤ l.length) : (l.takeWhile p).length < n ↔ ∃ a ∈ l.take n, p a = false := by
  induction l generalizing n with
  | nil => simp at hn; simp [hn]
  | cons a rest ih =>
    cases n with
    | zero => simp
    | succ n =>
      have := ih (n := n) (by simpa using hn)
      cases hp : p a <;> simp [hp, this]

/-- The arrow stands on one of the first lines just when one of those behind the start is not
long. -/
theorem arrowIndex_lt_iff {n : Nat} (hn : opening span ≤ n) (hlines : n ≤ lines.length) :
    arrowIndex span lines < n ↔
      ∃ line ∈ (lines.take n).drop (opening span), isLong span.startColumn line = false := by
  have hbehind : n - opening span ≤ (lines.drop (opening span)).length := by
    rw [List.length_drop]
    exact Nat.sub_le_sub_right hlines _
  rw [List.drop_take, ← length_takeWhile_lt_iff hbehind, arrowIndex]
  omega

/-- The lines shown end with the span, or with the text, unless the arrow stands below. -/
theorem map_line_rows_eq_take_iff (hstart : 1 ≤ span.startLine)
    (h : span.startLine ≤ span.endLine) :
    (rows span lines).map Row.line = lines.take span.endLine.toNat ↔
      lines.length ≤ span.endLine.toNat ∨
        ∃ line ∈ (lines.take span.endLine.toNat).drop span.startLine.toNat,
          isLong span.startColumn line = false := by
  have hopening : opening span = span.startLine.toNat := by unfold opening; omega
  have hend : opening span + (span.endLine - span.startLine).toNat = span.endLine.toNat := by omega
  rw [map_line_rows, hend, List.take_eq_take_iff, ← hopening]
  rcases Nat.le_total lines.length span.endLine.toNat with hle | hle
  · exact iff_of_true (by omega) (.inl hle)
  · rw [← arrowIndex_lt_iff (by omega) hle]
    omega

end Diagnostic

namespace CompileError

open Diagnostic

/-- **A compile error over several lines shows its source up to the end of its span, or to the
arrow.**  Let the span of the error start on line `first` and end on a later line `last`.

* The text is made of the first lines of the source, each with its mark, down to line `last` or to
  the line with the arrow, whichever is further down; the rows of marks follow directly.
* The arrow is below line `first`, on the first line that is not too long to take it.
* No line below the span is shown just when a line of the span behind `first` is not too long, so
  that the arrow stands in the span, or when the source ends with the span. -/
theorem text_shows_the_source_up_to_the_end_or_the_arrow (e : CompileError)
    (h : e.span.startLine < e.span.endLine) :
    let lines := sourceLines e.source.text
    let first := e.span.startLine.toNat
    let last := e.span.endLine.toNat
    let arrow := arrowIndex e.span lines
    ∃ shown : List Row, e.text = drawn e.span shown e.message ∧
      shown.map Row.line = lines.take (max last (arrow + 1)) ∧
      first ≤ arrow ∧
      (∀ i line, shown[i]? = some (.arrow line) ↔ i = arrow ∧ lines[i]? = some line) ∧
      (shown.map Row.line = lines.take last ↔ lines.length ≤ last ∨
        ∃ line ∈ (lines.take last).drop first, isLong e.span.startColumn line = false) := by
  intro lines first last arrow
  have hfirst : 1 ≤ e.span.startLine :=
    Int.ofNat_le.2 (e.source.one_le_line_location e.fault.extent.start)
  have hopening : opening e.span = first := by unfold opening first; omega
  refine ⟨rows e.span lines, ?_, ?_, ?_, fun i line => getElem?_rows_eq_arrow_iff,
    map_line_rows_eq_take_iff hfirst (by omega)⟩
  · have hspan : ¬ (e.span.startLine = e.span.endLine ∧ e.span.startColumn < e.span.endColumn) :=
      fun hsame => Int.ne_of_lt h hsame.1
    rw [text, format, if_neg hspan, multiLine, Text.Source.toString, String.toList_ofList]
    rfl
  · have hend : opening e.span + (e.span.endLine - e.span.startLine).toNat = last := by omega
    rw [map_line_rows, hend]
  · rw [← hopening]
    exact Nat.le_add_right _ _

/-- The empty line between the start and the end takes the arrow. -/
theorem text_shows_the_source_up_to_the_end_or_the_arrow_of_short_line :
    ∃ e, compileStatic "static ref g \x7b (\n\n ) ::= \"x\"\n\x7d" = .error e ∧
      e.span.startLine < e.span.endLine ∧
      e.text = "static ref g \x7b (\n               ^\n ) ::= \"x\"     |\n" ++
        " ^             |\n |-------------| expected identifier" ∧
      ∃ shown, e.text = drawn e.span shown e.message ∧
        shown.map Row.line = (sourceLines e.source.text).take e.span.endLine.toNat ∧
        shown[1]? = some (.arrow []) := by
  refine ⟨⟨⟨.expected .identifier, ⟨15, 20⟩⟩,
    Text.Source.ofString "static ref g \x7b (\n\n ) ::= \"x\"\n\x7d"⟩, by cbv, by decide, rfl, ?_⟩
  obtain ⟨shown, htext, -, -, harrow, hlines⟩ :=
    text_shows_the_source_up_to_the_end_or_the_arrow ⟨⟨.expected .identifier, ⟨15, 20⟩⟩,
      Text.Source.ofString "static ref g \x7b (\n\n ) ::= \"x\"\n\x7d"⟩ (by decide)
  exact ⟨shown, htext, hlines.2 (.inr ⟨[], by decide, rfl⟩), (harrow 1 []).2 (by decide)⟩

/-- The one line of the span behind the start is too long, so the arrow stands on the line below the
span, which is shown because of that. -/
theorem text_shows_a_line_below_the_span :
    ∃ e, compileStatic "static ref g \x7b (\n ) // the parameters of nothing\n\x7d" = .error e ∧
      e.span = ⟨1, 15, 2, 2⟩ ∧
      e.text = "static ref g \x7b (\n ) // the parameters of nothing\n\x7d              ^\n" ++
        " ^             |\n |-------------| expected identifier" ∧
      ¬ ∃ shown, e.text = drawn e.span shown e.message ∧
        shown.map Row.line = (sourceLines e.source.text).take e.span.endLine.toNat := by
  refine ⟨⟨⟨.expected .identifier, ⟨15, 19⟩⟩, Text.Source.ofString
    "static ref g \x7b (\n ) // the parameters of nothing\n\x7d"⟩, by cbv, rfl, rfl, ?_⟩
  rintro ⟨shown, htext, hlines⟩
  have hspan : shown.map Row.line =
      ["static ref g \x7b (".toList, " ) // the parameters of nothing".toList] :=
    hlines.trans (by decide)
  clear hlines
  obtain ⟨a, b, rfl, ha, hb⟩ : ∃ a b, shown = [a, b] ∧ a.line = "static ref g \x7b (".toList ∧
      b.line = " ) // the parameters of nothing".toList := by
    grind [List.map_eq_cons_iff, List.map_eq_nil_iff]
  cases a <;> cases b <;> cases ha <;> cases hb <;> exact absurd htext (by decide)

end CompileError

end TextTemplate
