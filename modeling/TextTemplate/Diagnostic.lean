import TextTemplate.Text.Cut
import TextTemplate.Text.Source

/-!
# Diagnostics

A diagnostic shows a source text up to the place of a fault, with marks that point at it.

* A fault within one line (`Diagnostic.singleLine`): the lines up to it, then carets under it and
  the message.
* Any other fault (`Diagnostic.multiLine`): the lines up to its start; a caret after the first line
  short enough to leave the column of the start free, then a bar after each such line to its end;
  then two rows of marks under the end, with the message.
-/

namespace TextTemplate

namespace Diagnostic

/-- A line of a source text, without its end. -/
abbrev Line := List Char

/-- The line without one carriage return at its end. -/
def dropReturn (line : Line) : Line :=
  if line.getLast? = some '\r' then line.dropLast else line

/-- The lines of a source text.  An end of line at the very end opens no further line. -/
def sourceLines (source : List Char) : List Line :=
  let pieces := Text.splitAll '\n' source
  (if pieces.getLast? = some [] then pieces.dropLast else pieces).map dropReturn

/-- The character repeated; a negative count gives nothing. -/
def repeated (c : Char) (count : Int) : List Char := List.replicate count.toNat c

/-- The line filled up with spaces to the given width. -/
def pad (line : Line) (width : Int) : Line := line ++ repeated ' ' (width - line.length)

/-! ### Faults within one line -/

/-- The first `count` lines, or all but the last `-count` where `count` is negative. -/
def firstLines (lines : List Line) (count : Int) : List Line :=
  if 0 ≤ count then lines.take count.toNat else lines.take (lines.length - (-count).toNat)

/-- Carets under the columns of the span. -/
def carets (span : Text.Span) : Line :=
  repeated ' ' span.startColumn ++ repeated '^' (span.endColumn - span.startColumn)

/-- The diagnostic of a fault within one line. -/
def singleLine (span : Text.Span) (message : String) (source : String) : String :=
  let shown := firstLines (sourceLines source.toList) span.startLine
  String.ofList (Text.joinWith '\n' shown ++ '\n' :: carets span ++ [' ']) ++ message

/-! ### Faults over several lines -/

/-- A source line of a diagnostic, with the mark that is put after it. -/
inductive Row where
  | plain (line : Line)
  | arrow (line : Line)
  | bar (line : Line)
deriving DecidableEq, Repr

namespace Row

/-- The source line of the row. -/
def line : Row → Line
  | .plain line | .arrow line | .bar line => line

/-- The row as written, where marks stand in the given column. -/
def text (column : Int) : Row → Line
  | .plain line => line
  | .arrow line => pad line column ++ ['^']
  | .bar line => pad line column ++ ['|']

end Row

/-- Whether a line reaches beyond the column after `column`, so that no mark can follow it. -/
def isLong (column : Int) (line : Line) : Bool := column + 1 < line.length

/-- The rows with bars: the next `count` lines. -/
def barRows (column count : Int) (lines : List Line) : List Row :=
  (lines.take count.toNat).map fun line =>
    if isLong column line then .plain line else .bar line

/-- The rows from the line after the start on: the arrow stands on the first line that is not long,
and each line before it takes one of the `count` bars. -/
def arrowRows (column : Int) (count : Int) : List Line → List Row
  | [] => []
  | line :: rest =>
    if isLong column line then .plain line :: arrowRows column (count - 1) rest
    else .arrow line :: barRows column count rest

/-- All rows that show source lines. -/
def rows (span : Text.Span) (lines : List Line) : List Row :=
  let opening := max span.startLine.toNat 1
  (lines.take opening).map .plain ++
    arrowRows span.startColumn (span.endLine - span.startLine - 1) (lines.drop opening)

/-- The number of carets under the end of the span. -/
def caretWidth (span : Text.Span) : Int := max (span.endColumn - span.startColumn) 1

/-- The row of marks with carets under the end of the span. -/
def caretRow (span : Text.Span) : Line :=
  repeated ' ' (span.endColumn - 1) ++ repeated '^' (caretWidth span) ++
    repeated ' ' (span.startColumn - span.endColumn) ++ ['|']

/-- The row of marks with a bracket, which the message follows. -/
def bracketRow (span : Text.Span) : Line :=
  repeated ' ' (span.endColumn - 1) ++ '|' :: repeated ' ' (caretWidth span - 1) ++
    repeated '-' (span.startColumn - span.endColumn) ++ ['|']

/-- The diagnostic of a fault over several lines. -/
def multiLine (span : Text.Span) (message : String) (source : String) : String :=
  let shown := (rows span (sourceLines source.toList)).map (Row.text span.startColumn)
  String.ofList
    (Text.joinWith '\n' (shown ++ [caretRow span, bracketRow span]) ++ [' ']) ++ message

/-- The diagnostic of a fault: within one line when the span ends on its first line, after its
start. -/
def format (span : Text.Span) (message : String) (source : String) : String :=
  if span.startLine = span.endLine ∧ span.startColumn < span.endColumn then
    singleLine span message source
  else multiLine span message source

end Diagnostic

end TextTemplate
