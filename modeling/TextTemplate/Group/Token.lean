import TextTemplate.Text.Source

/-!
# Tokens of a group text

A group text is a sequence of names, string literals and punctuation.  A token knows the range of
the text it was read from.  A string literal also knows, for each character of its decoded value,
the index of the text at which that character is spelt, so that a fault inside the value can be
shown in the text.
-/

namespace TextTemplate

namespace Group

/-- The lexical class of a token. -/
inductive Token.Kind where
  | identifier
  | string
  | leftParen
  | rightParen
  | leftBrace
  | rightBrace
  | comma
  | semicolon
  | pathSeparator
  | equals
  /-- Any other single character. -/
  | punctuation
  | endOfInput
deriving DecidableEq, Repr

/-- The closing delimiter that an opening one asks for. -/
def Token.Kind.closing? : Token.Kind → Option Token.Kind
  | .leftParen => some .rightParen
  | .leftBrace => some .rightBrace
  | _ => none

/-- Whether the class is a closing delimiter. -/
def Token.Kind.isClosing : Token.Kind → Bool
  | .rightParen | .rightBrace => true
  | _ => false

/-- A token with the range of the text it was read from. -/
structure Token where
  kind : Token.Kind
  /-- The characters of the token, decoded for a string literal. -/
  value : String
  extent : Text.Extent
  /-- For a string literal, the index of each character of the value and that of the end of its
  content; empty for all other tokens. -/
  offsets : List Nat
deriving DecidableEq, Repr

namespace Token

/-- The token at the end of a text. -/
def endOfInput (source : Text.Source) : Token := ⟨.endOfInput, "", source.endOfText, []⟩

/-- How a token is named in a message. -/
def describe (token : Token) : String :=
  match token.kind with
  | .endOfInput => "end of input"
  | .string => "string literal"
  | _ => "`" ++ token.value ++ "`"

end Token

end Group

end TextTemplate
