import TextTemplate.Text.Bisection

/-!
# Source texts and places in them

A place in a text is an index: the number of characters before it.  Readers are shown places as
lines, counted from one, and columns, counted from zero.  Only `U+000A` ends a line.  A `Source`
holds a text with the index at which each of its lines starts, so that an index is turned into a
line and a column by a search among the line starts (`Source.location`).  Indices past the end are
on the last line.
-/

namespace TextTemplate

namespace Text

/-- A line, counted from one, and a column in it, counted from zero. -/
structure Location where
  line : Nat
  column : Nat
deriving DecidableEq, Repr

/-- Two places of a text, as shown to a reader.  The numbers are unrestricted: a span may run
backwards, or lie outside the text. -/
structure Span where
  startLine : Int
  startColumn : Int
  endLine : Int
  endColumn : Int
deriving DecidableEq, Repr

namespace Span

/-- The span from the start of `first` to the end of `last`. -/
def join (first last : Span) : Span :=
  ⟨first.startLine, first.startColumn, last.endLine, last.endColumn⟩

/-- Lines and columns of both ends: `1:0-1:3`. -/
instance : ToString Span where
  toString s := s!"{s.startLine}:{s.startColumn}-{s.endLine}:{s.endColumn}"

end Span

/-- A half-open range of indices of a text. -/
structure Extent where
  start : Nat
  stop : Nat
deriving DecidableEq, Repr

namespace Extent

/-- The number of indices in the range. -/
def length (e : Extent) : Nat := e.stop - e.start

/-- The range from the start of `first` to the end of `last`. -/
def join (first last : Extent) : Extent := ⟨first.start, last.stop⟩

/-- The range moved by `n` indices to the right. -/
def shift (n : Nat) (e : Extent) : Extent := ⟨n + e.start, n + e.stop⟩

/-- The characters of a text in the range. -/
def slice (e : Extent) (text : List Char) : List Char := (text.drop e.start).take e.length

end Extent

/-! ### Lines of a text -/

/-- The indices just after each end of line, where the text starts at index `i`. -/
def lineStartsFrom (i : Nat) : List Char → List Nat
  | [] => []
  | c :: rest =>
    if c = '\n' then (i + 1) :: lineStartsFrom (i + 1) rest else lineStartsFrom (i + 1) rest

/-- A text with the index at which each of its lines starts. -/
structure Source where
  text : List Char
  lineStarts : Array Nat
  lineStarts_eq : lineStarts.toList = 0 :: lineStartsFrom 0 text

namespace Source

/-- The source that holds the given characters. -/
def ofList (text : List Char) : Source := ⟨text, (0 :: lineStartsFrom 0 text).toArray, rfl⟩

/-- The source that holds the given text. -/
def ofString (text : String) : Source := ofList text.toList

/-- The text as a string. -/
def toString (source : Source) : String := String.ofList source.text

/-- The number of characters. -/
def length (source : Source) : Nat := source.text.length

/-- Every text has a first line. -/
theorem size_lineStarts_pos (source : Source) : 0 < source.lineStarts.size := by
  rw [← Array.length_toList, source.lineStarts_eq, List.length_cons]
  exact Nat.succ_pos _

/-- The line and column of an index: the number of lines that start at or before it, and its
distance from the start of the last of them. -/
def location (source : Source) (index : Nat) : Location :=
  let line := upperBound source.lineStarts index
  have hline : line - 1 < source.lineStarts.size :=
    Nat.lt_of_le_of_lt (Nat.sub_le_sub_right (upperBound_le_size _ _) 1)
      (Nat.sub_one_lt_of_lt source.size_lineStarts_pos)
  ⟨line, index - source.lineStarts[line - 1]⟩

/-- The locations of both ends of a range of indices. -/
def span (source : Source) (e : Extent) : Span :=
  let first := source.location e.start
  let last := source.location e.stop
  ⟨first.line, first.column, last.line, last.column⟩

/-- The range of the first character, or the empty range of an empty text. -/
def firstCharacter (source : Source) : Extent := ⟨0, min 1 source.length⟩

/-- The empty range at the end of the text. -/
def endOfText (source : Source) : Extent := ⟨source.length, source.length⟩

end Source

end Text

end TextTemplate
