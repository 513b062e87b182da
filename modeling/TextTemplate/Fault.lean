import TextTemplate.Text.Source

/-!
# What can be wrong with a template or group text

A `Fault` is a cause (`Problem`) together with the range of the text to blame.  The wording of
every cause is `Problem.message`; places are turned into lines and columns only when a fault is
shown.
-/

namespace TextTemplate

/-- What a reader asks for at a place where something else stands. -/
inductive Expectation where
  | parameterList
  | pathSeparator
  | equals
  | stringLiteral
  | identifier
  | comma
  | closingParen
  | openingBrace
  | closingBrace
  | keyword (word : String)
deriving DecidableEq, Repr

/-- How a missing item is named in a message. -/
def Expectation.describe : Expectation → String
  | .parameterList => "parentheses"
  | .pathSeparator => "`::`"
  | .equals => "`=`"
  | .stringLiteral => "string literal"
  | .identifier => "identifier"
  | .comma => "`,`"
  | .closingParen => "`)`"
  | .openingBrace => "`\x7b`"
  | .closingBrace => "`\x7d`"
  | .keyword word => "`" ++ word ++ "`"

/-- Why a text is rejected. -/
inductive Problem where
  /-- A quoted literal has no closing quote. -/
  | unterminatedString
  /-- A raw literal has no closing quote followed by its number signs. -/
  | unterminatedRawString
  /-- A `<<` body has no closing `>>`. -/
  | unterminatedBody
  /-- A `\u` escape is malformed or names no character. -/
  | invalidUnicodeEscape
  /-- A backslash is followed by something that is no escape. -/
  | unknownEscape
  /-- A closing delimiter does not match the innermost open one. -/
  | unexpectedClosing
  /-- An opening delimiter is never closed. -/
  | unclosedDelimiter
  /-- Another item was required here. -/
  | expected (what : Expectation)
  /-- The text ends where an item was required. -/
  | unexpectedEnd (what : Expectation)
  /-- A token stands where the text had to end. -/
  | unexpectedToken (description : String)
  /-- A template of this name is already declared. -/
  | duplicateTemplate (name : String)
  /-- An expression is opened and never closed. -/
  | unfinishedExpression
  /-- A character has no place in an expression. -/
  | unexpectedCharacter (c : Char)
deriving DecidableEq, Repr

/-- The text of a problem, as shown to a user. -/
def Problem.message : Problem → String
  | .unterminatedString => "unterminated string literal"
  | .unterminatedRawString => "unterminated raw string"
  | .unterminatedBody => "unterminated template body"
  | .invalidUnicodeEscape => "invalid unicode character escape"
  | .unknownEscape => "unknown character escape"
  | .unexpectedClosing => "unexpected closing delimiter"
  | .unclosedDelimiter => "unclosed delimiter"
  | .expected what => "expected " ++ what.describe
  | .unexpectedEnd what => "unexpected end of input, expected " ++ what.describe
  | .unexpectedToken description => "unexpected token " ++ description
  | .duplicateTemplate name => "duplicate template `" ++ name ++ "`"
  | .unfinishedExpression => "unfinished template expression"
  | .unexpectedCharacter c => "unexpected `" ++ c.toString ++ "` in template expression"

/-- A problem and the range of indices to blame for it. -/
structure Fault where
  problem : Problem
  extent : Text.Extent
deriving DecidableEq, Repr

/-- Moves the fault of a decoded text to the text that it was decoded from: `offsets` gives the
index of each decoded character, and that of the end. -/
def Fault.relocate (offsets : List Nat) (fault : Fault) : Fault :=
  ⟨fault.problem, ⟨offsets.getD fault.extent.start 0, offsets.getD fault.extent.stop 0⟩⟩

end TextTemplate
