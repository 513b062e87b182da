import TextTemplate.Library
import TextTemplate.Proofs.Diagnostics
import TextTemplate.Proofs.Group.Readers
import TextTemplate.Proofs.Places.Declarations
import TextTemplate.Proofs.Places.Lines

/-!
# What a diagnostic within one line shows

Three counts of lines meet in such a diagnostic: the source locates the blamed range by its line
starts, the lines are shown as the text splits into them, and only the first of these are shown.
For a text without carriage returns they agree (`Diagnostic.take_sourceLines`), so the carets stand
under the characters that are to blame, in the last line that is shown
(`CompileError.errors_within_a_line_are_underlined`).

The empty text, read as a static declaration, has no such line: its error blames the empty range at
its end, and is shown as one over several lines (`CompileError.empty_text_is_not_underlined`).
-/

namespace TextTemplate

/-! ### Texts without carriage returns -/

namespace Text

theorem return_not_mem_normalizeLineEnds (text : List Char) : '\r' ∉ normalizeLineEnds text := by
  fun_induction normalizeLineEnds text with
  | case1 => exact List.not_mem_nil
  | case2 rest ih => simp [ih]
  | case3 c rest h ih =>
    split
    · simp [ih]
    · next hc => simp [ih, Ne.symm hc]

end Text

/-- A text that is read from a file has no carriage return. -/
theorem Folder.return_not_mem_of_readText {folder : Folder} {path : Path} {text : String}
    (h : folder.readText path = .ok text) : '\r' ∉ text.toList := by
  obtain ⟨bytes, hbytes⟩ : ∃ bytes, Text.ofBytes? bytes = some text := by
    grind [readText]
  obtain ⟨decoded, -, rfl⟩ := Option.map_eq_some_iff.1 hbytes
  rw [String.toList_ofList]
  exact Text.return_not_mem_normalizeLineEnds decoded.toList

namespace Diagnostic

variable {source : List Char} {line : Line} {lines : List Line} {n : Nat}

theorem map_dropReturn_of_not_mem (h : ∀ line ∈ lines, '\r' ∉ line) :
    lines.map dropReturn = lines :=
  (List.map_congr_left fun line hline =>
    if_neg fun hlast => h line hline (List.mem_of_getLast? hlast)).trans (List.map_id lines)

/-- Up to a line that is not empty, the lines that are shown are the pieces of the text: only an
empty piece is left out, at the very end. -/
theorem take_sourceLines (hr : '\r' ∉ source)
    (hget : (Text.splitAll '\n' source)[n]? = some line) (hline : line ≠ []) :
    (sourceLines source).take (n + 1) = (Text.splitAll '\n' source).take (n + 1) := by
  have hpieces : ∀ piece ∈ Text.splitAll '\n' source, '\r' ∉ piece :=
    fun piece hp hc => hr (Text.mem_of_mem_splitAll hp hc)
  rw [sourceLines]
  split
  · next hlast =>
    rw [map_dropReturn_of_not_mem fun piece hp => hpieces piece (List.mem_of_mem_dropLast hp),
      List.dropLast_eq_take, List.take_take]
    rw [List.getLast?_eq_getElem?] at hlast
    have hn : n < (Text.splitAll '\n' source).length := (List.getElem?_eq_some_iff.1 hget).1
    -- the piece that is left out is empty, and this line is not
    have : n ≠ (Text.splitAll '\n' source).length - 1 := by
      rintro rfl
      exact hline (Option.some.inj (hget.symm.trans hlast))
    congr 1
    omega
  · rw [map_dropReturn_of_not_mem hpieces]

/-- The diagnostic of a span that covers some characters of one line. -/
theorem format_within_line {span : Text.Span} {source : String} {before inner after : Line}
    (hr : '\r' ∉ source.toList) (hpos : 1 ≤ span.startLine)
    (hget : (Text.splitAll '\n' source.toList)[span.startLine.toNat - 1]? =
      some (before ++ inner ++ after))
    (hinner : inner ≠ []) (hline : span.startLine = span.endLine)
    (hfirst : span.startColumn = before.length)
    (hlast : span.endColumn = before.length + inner.length) (message : String) :
    let shown := (Text.splitAll '\n' source.toList).take span.startLine.toNat
    shown.length = span.startLine ∧ shown.getLast? = some (before ++ inner ++ after) ∧
      format span message source = String.ofList (Text.joinWith '\n' shown ++ '\n' ::
        (List.replicate before.length ' ' ++ List.replicate inner.length '^') ++ [' ']) ++
          message := by
  intro shown
  have hcount : span.startLine.toNat = span.startLine.toNat - 1 + 1 := by omega
  have hshown : (sourceLines source.toList).take span.startLine.toNat = shown := by
    unfold shown
    rw [hcount]
    exact take_sourceLines hr hget (by simp [hinner])
  have hlength := (List.getElem?_eq_some_iff.1 hget).1
  have hpositive := List.length_pos_iff.2 hinner
  refine ⟨?_, ?_, ?_⟩
  · rw [List.length_take_of_le (by omega)]
    omega
  · rw [List.getLast?_take, if_neg (by omega), hget]
    rfl
  · have hcarets : carets span =
        List.replicate before.length ' ' ++ List.replicate inner.length '^' := by
      rw [carets, repeated, repeated, hfirst, hlast, add_sub_cancel_left, Int.toNat_natCast,
        Int.toNat_natCast]
    rw [format, if_pos ⟨hline, by omega⟩, singleLine, firstLines, if_pos (by omega), hshown, hcarets]

end Diagnostic

/-- A range whose span stays on one line stands in that line, in the columns of the span. -/
theorem Text.Source.exists_line_of_span {source : Source} {e : Extent}
    (h : e.Within 0 source.length)
    (hline : (source.span e).startLine = (source.span e).endLine) :
    let span := source.span e
    let inner := e.slice source.text
    1 ≤ span.startLine ∧ inner ≠ [] ∧ inner.length = e.length ∧ ∃ before after,
      (splitAll '\n' source.text)[span.startLine.toNat - 1]? = some (before ++ inner ++ after) ∧
      span.startColumn = before.length ∧ span.endColumn = before.length + inner.length := by
  intro span inner
  obtain ⟨before, after, hget, hlength, hfirst, hlast⟩ :=
    exists_line (Nat.le_of_lt h.start_lt_stop) h.stop_le (Int.ofNat_inj.1 hline)
  refine ⟨Int.ofNat_le.2 (source.one_le_line_location e.start), ?_, hlength, before, after, hget,
    congrArg Nat.cast hfirst, congrArg Nat.cast hlast⟩
  have hpos := Nat.sub_pos_of_lt h.start_lt_stop
  exact List.ne_nil_of_length_pos (hlength ▸ hpos)

namespace CompileError

open Diagnostic Text

variable {text : String} {e : CompileError}

/-- An error of a text that is not empty blames a range of that text, and not an empty one. -/
theorem extent_within_of_fails (h : compileTemplate text = .error e ∨
      compileGroup text = .error e ∨ compileStatic text = .error e) (hne : text ≠ "") :
    e.source = Source.ofString text ∧ e.fault.extent.Within 0 (Source.ofString text).length := by
  rcases h with h | h | h
  · have hp := Body.placesFaults_scan text.toList
    rw [compileTemplate] at h
    cases hs : Body.scan text.toList with
    | ok expressions => simp [hs] at h
    | error fault =>
      rw [hs] at h hp
      obtain rfl := Except.error.inj h
      exact ⟨rfl, hp⟩
  · obtain ⟨hsource, hread⟩ := Group.compileGroup_eq_error_iff.1 h
    have hp := Group.placesFaults_readDefinitions e.source
    rw [hread, hsource] at hp
    exact ⟨hsource, hp⟩
  · obtain ⟨hsource, hread⟩ := Group.compileStatic_eq_error_iff.1 h
    have hpos : 0 < e.source.length := by
      rw [hsource]
      exact List.length_pos_iff.2 fun he => hne (String.toList_eq_nil_iff.1 he)
    have hp := Group.placesFaults_readStatic hpos
    rw [hread, hsource] at hp
    exact ⟨hsource, hp⟩

/-- **A compile error within one line is shown with carets under what it blames.**  Let the span of
an error start and end on one line, where the text is not empty.  If the text has no carriage
return, as all texts from files, then

* the lines up to that line are shown, as many as the span says;
* the last of them has the blamed characters between the columns of the span, which are as many as
  the error blames in the text;
* the carets stand in just these columns, and the message behind them. -/
theorem errors_within_a_line_are_underlined
    (h : compileTemplate text = .error e ∨ compileGroup text = .error e ∨
      compileStatic text = .error e)
    (hne : text ≠ "") (hline : e.span.startLine = e.span.endLine) :
    let blamed := e.fault.extent.slice text.toList
    let shown := (splitAll '\n' text.toList).take e.span.startLine.toNat
    (∀ (folder : Folder) (path : Path), folder.readText path = .ok text → '\r' ∉ text.toList) ∧
    ('\r' ∉ text.toList →
      e.span = (Source.ofString text).span e.fault.extent ∧
      e.fault.extent.start < e.fault.extent.stop ∧ e.fault.extent.stop ≤ text.length ∧
      shown.length = e.span.startLine ∧
      ∃ before after : Line, shown.getLast? = some (before ++ blamed ++ after) ∧
        blamed.length = e.fault.extent.length ∧
        e.span.startColumn = before.length ∧
        e.span.endColumn = before.length + blamed.length ∧
        e.text = String.ofList (joinWith '\n' shown ++ '\n' ::
          (List.replicate before.length ' ' ++ List.replicate blamed.length '^') ++ [' ']) ++
            e.message) := by
  intro blamed shown
  refine ⟨fun folder path => Folder.return_not_mem_of_readText, fun hr => ?_⟩
  obtain ⟨hsource, hwithin⟩ := extent_within_of_fails h hne
  have hspan : e.span = (Source.ofString text).span e.fault.extent := by rw [span, hsource]
  have hsame := hline
  rw [hspan] at hsame
  obtain ⟨hpos, hblamed, hlength, before, after, hget, hfirst, hlast⟩ :=
    Source.exists_line_of_span hwithin hsame
  rw [← hspan] at hpos hget hfirst hlast
  have htext : e.source.toString = text := by
    rw [hsource, Source.toString]
    exact String.ofList_toList
  obtain ⟨hlines, hshown, hformat⟩ :=
    format_within_line hr hpos hget hblamed hline hfirst hlast e.message
  refine ⟨hspan, hwithin.start_lt_stop, hwithin.stop_le.trans_eq String.length_toList, hlines,
    before, after, hshown, hlength, hfirst, hlast, ?_⟩
  rw [CompileError.text, htext, hformat]
  rfl

/-- The fault stands behind an escape in the body, and is underlined where it stands in the
source. -/
theorem errors_within_a_line_are_underlined_of_body :
    ∃ e, compileGroup "a() ::= \"x\"\nb() ::= \"\\t<x y>\"\n" = .error e ∧
      e.span = ⟨2, 14, 2, 15⟩ ∧ ∃ before after : Line, before.length = 14 ∧
        "b() ::= \"\\t<x y>\"".toList = before ++ ['y'] ++ after ∧
        e.text = "a() ::= \"x\"\nb() ::= \"\\t<x y>\"\n              ^ " ++
          "unexpected `y` in template expression" := by
  have hcompile : compileGroup "a() ::= \"x\"\nb() ::= \"\\t<x y>\"\n" =
      .error ⟨⟨.unexpectedCharacter 'y', ⟨26, 27⟩⟩,
        Source.ofString "a() ::= \"x\"\nb() ::= \"\\t<x y>\"\n"⟩ := by cbv
  obtain ⟨-, hshown⟩ :=
    errors_within_a_line_are_underlined (.inr (.inl hcompile)) (by decide) (by decide)
  obtain ⟨hspan, -, -, -, before, after, hlast, -, hbefore, -⟩ := hshown (by decide)
  exact ⟨_, hcompile, rfl, before, after, Int.ofNat_inj.1 hbefore.symm, Option.some.inj hlast, rfl⟩

/-- The error of the empty text blames nothing, so that no caret could stand under it: it is shown
as one over several lines. -/
theorem empty_text_is_not_underlined :
    ∃ e, compileStatic "" = .error e ∧ e.span = ⟨1, 0, 1, 0⟩ ∧ '\r' ∉ "".toList ∧
      e.text = "^|\n|| unexpected end of input, expected `static`" ∧
      e.text ≠ String.ofList (joinWith '\n' ((splitAll '\n' "".toList).take 1) ++ '\n' ::
        (List.replicate 0 ' ' ++ List.replicate (0 - 0) '^') ++ [' ']) ++ e.message := by
  refine ⟨⟨⟨.unexpectedEnd (.keyword "static"), ⟨0, 0⟩⟩, Source.ofString ""⟩, ?_, rfl, by decide,
    rfl, by decide⟩
  rw [compileStatic, Group.readStatic_empty]

end CompileError

end TextTemplate
