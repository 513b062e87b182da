import TextTemplate.Text.Blank
import TextTemplate.Group.Token
import TextTemplate.Group.Literal

/-!
# Reading tokens

Between tokens stand blanks and comments, which run from `//` to the end of their line.  A token is
the longest of these that starts at its place, in this order of preference: a raw literal, an
identifier, a quoted literal, a `<<` body, `::`, a single character.

* `Token.read` reads one token;
* `Lexing.read` reads a text to its end, or to the first misspelt literal.
-/

namespace TextTemplate

namespace Group

/-- The number of characters in the blanks and comments at the front of a text, where `inComment`
tells whether a comment is open. -/
def triviaLength (inComment : Bool) : List Char → Nat
  | [] => 0
  | c :: rest =>
    if inComment then 1 + triviaLength (c != '\n') rest
    else if Text.isBlank c then 1 + triviaLength false rest
    else if c = '/' ∧ rest.head? = some '/' then 1 + triviaLength true rest
    else 0

namespace Token

/-- The class of a token that is one character. -/
def Kind.ofCharacter : Char → Kind
  | '(' => .leftParen
  | ')' => .rightParen
  | '{' => .leftBrace
  | '}' => .rightBrace
  | ',' => .comma
  | ';' => .semicolon
  | '=' => .equals
  | _ => .punctuation

/-- A token of the given class that stands for its own characters. -/
def verbatim (kind : Kind) (index : Nat) (characters : List Char) : Token :=
  ⟨kind, String.ofList characters, ⟨index, index + characters.length⟩, []⟩

/-- A string literal that starts at `index` and whose closing delimiter has the given length. -/
def ofContent (index closeLength : Nat) (content : Content) : Token :=
  ⟨.string, String.ofList content.value, ⟨index, content.close + closeLength⟩, content.offsets⟩

/-- Reads the token that starts with the character `c` at `index`. -/
def read (index : Nat) (c : Char) (rest : List Char) : Except Fault Token :=
  match Raw.opening? (c :: rest) with
  | some hashes =>
    (Raw.read hashes index (index + hashes + 2) (rest.drop (hashes + 1))).map
      (ofContent index (hashes + 1))
  | none =>
    if Text.isIdentifierStart c then
      .ok (verbatim .identifier index (c :: rest.takeWhile Text.isIdentifierPart))
    else if c = '"' then (Quoted.read index (index + 1) rest).map (ofContent index 1)
    else if c = '<' ∧ rest.head? = some '<' then
      (Angle.read index false (index + 2) (rest.drop 1)).map (ofContent index 2)
    else if c = ':' ∧ rest.head? = some ':' then .ok (verbatim .pathSeparator index [':', ':'])
    else .ok (verbatim (Kind.ofCharacter c) index [c])

end Token

/-- The tokens of a text, up to the first misspelt literal if there is one. -/
structure Lexing where
  tokens : List Token
  fault? : Option Fault
deriving DecidableEq, Repr

/-- Reads the tokens of a text whose first character has the given index. -/
def Lexing.read (index : Nat) (text : List Char) : Lexing :=
  let skipped := triviaLength false text
  match h : text.drop skipped with
  | [] => ⟨[], none⟩
  | c :: rest =>
    have shorter : rest.length < text.length := by
      have := congrArg List.length h
      simp only [List.length_drop, List.length_cons] at this
      omega
    match Token.read (index + skipped) c rest with
    | .error fault => ⟨[], some fault⟩
    | .ok token =>
      let later := Lexing.read token.extent.stop (rest.drop (token.extent.length - 1))
      ⟨token :: later.tokens, later.fault?⟩
termination_by text.length
decreasing_by simp only [List.length_drop]; omega

end Group

end TextTemplate
