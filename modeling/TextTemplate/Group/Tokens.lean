import TextTemplate.Group.Lexeme

/-!
# The token list of a group text

Parentheses and braces outside literals and comments have to be nested.  `Nesting.check` walks
along the tokens with the stack of open delimiters.  A closing delimiter without a partner is
reported before a literal misspelt further on, and a delimiter left open only when the text could
be read to its end.
-/

namespace TextTemplate

namespace Group

namespace Nesting

/-- Walks along the tokens with the open delimiters, innermost first, and answers the ones still
open at the end. -/
def check (opened : List Token) : List Token → Except Fault (List Token)
  | [] => .ok opened
  | token :: rest =>
    if token.kind.closing?.isSome then check (token :: opened) rest
    else if token.kind.isClosing then
      match opened with
      | innermost :: outer =>
        if innermost.kind.closing? = some token.kind then check outer rest
        else .error ⟨.unexpectedClosing, token.extent⟩
      | [] => .error ⟨.unexpectedClosing, token.extent⟩
    else check opened rest

end Nesting

/-- The tokens of a text, without the one at its end. -/
def tokens (source : Text.Source) : Except Fault (List Token) :=
  let lexing := Lexing.read 0 source.text
  match Nesting.check [] lexing.tokens, lexing.fault? with
  | .error fault, _ => .error fault
  | .ok _, some fault => .error fault
  | .ok (innermost :: _), none => .error ⟨.unclosedDelimiter, innermost.extent⟩
  | .ok [], none => .ok lexing.tokens

/-- The tokens of a text, ending with the one at its end. -/
def tokenize (source : Text.Source) : Except Fault (List Token) :=
  (tokens source).map (· ++ [Token.endOfInput source])

end Group

end TextTemplate
