import TextTemplate.Definition
import TextTemplate.Body.Scan
import TextTemplate.Group.Tokens

/-!
# Declarations

A group text is a sequence of declarations `name(a, b) ::= literal`, each of them optionally
followed by a semicolon.  A comma may follow the last parameter.  A static declaration wraps such
a sequence as `pub static ref name { ... }`, where `pub` is optional.

Both are read token by token.  `Progress` says what has been read of the declaration at hand, and
`Progress.wanted` what has to follow; a token that cannot follow is reported at its place, and the
end of the text at the last token before it.  An opening delimiter is blamed together with all it
encloses.
-/

namespace TextTemplate

namespace Group

/-- Templates by name, in the order of their declaration. -/
abbrev Definitions := List (String × Definition)

/-- The reserved words, in ascending order: identifiers that name no template, group or
parameter. -/
def reservedWords : List String :=
  ["Self", "_", "abstract", "as", "async", "await", "become", "box", "break", "const", "continue",
    "crate", "do", "dyn", "else", "enum", "extern", "false", "final", "fn", "for", "if", "impl",
    "in", "let", "loop", "macro", "match", "mod", "move", "mut", "override", "priv", "pub", "ref",
    "return", "self", "static", "struct", "super", "trait", "true", "try", "type", "typeof",
    "unsafe", "unsized", "use", "virtual", "where", "while", "yield"]

/-- Whether the word is reserved. -/
def isReserved (word : String) : Bool := reservedWords.contains word

/-! ### Places to blame -/

/-- The token that closes a delimiter, where `depth` further delimiters of the same class have been
opened since. -/
def closer? (opening closing : Token.Kind) (depth : Nat) : List Token → Option Token
  | [] => none
  | token :: rest =>
    if token.kind = opening then closer? opening closing (depth + 1) rest
    else if token.kind = closing then
      match depth with
      | 0 => some token
      | depth + 1 => closer? opening closing depth rest
    else closer? opening closing depth rest

/-- The range to blame for a token that is followed by `rest`: an opening delimiter is blamed up to
the delimiter that closes it. -/
def blamed (token : Token) (rest : List Token) : Text.Extent :=
  match token.kind.closing? with
  | none => token.extent
  | some closing =>
    match closer? token.kind closing 0 rest with
    | none => token.extent
    | some last => token.extent.join last.extent

/-! ### Sequences of declarations -/

/-- What has been read of a declaration. -/
inductive Progress where
  /-- Nothing: a declaration may start here. -/
  | between
  /-- All of it: a semicolon may follow, or another declaration. -/
  | complete
  /-- Its name. -/
  | named (name : String)
  /-- Its parameters up to an opening parenthesis or a comma. -/
  | opened (name : String) (parameters : List String)
  /-- Its parameters up to a name. -/
  | listed (name : String) (parameters : List String)
  /-- Its parameters up to the closing parenthesis. -/
  | closed (name : String) (parameters : List String)
  /-- Everything up to `::`. -/
  | separated (name : String) (parameters : List String)
  /-- Everything up to `=`. -/
  | assigned (name : String) (parameters : List String)
deriving DecidableEq, Repr

/-- What is asked for after the part that has been read. -/
def Progress.wanted : Progress → Expectation
  | .between | .complete => .identifier
  | .named _ => .parameterList
  | .opened _ _ => .identifier
  | .listed _ _ => .comma
  | .closed _ _ => .pathSeparator
  | .separated _ _ => .equals
  | .assigned _ _ => .stringLiteral

/-- The declarations read so far, and the one at hand. -/
structure Reading where
  definitions : Definitions
  progress : Progress
deriving DecidableEq

namespace Reading

/-- Nothing has been read. -/
def start : Reading := ⟨[], .between⟩

/-- The definition made of a list of parameters and a literal. -/
def define (parameters : List String) (literal : Token) : Except Fault Definition :=
  match Body.scan literal.value.toList with
  | .ok expressions => .ok ⟨literal.value, expressions, some (NameSet.ofList parameters)⟩
  | .error fault => .error (fault.relocate literal.offsets)

/-- The name that a token stands for, if it is an identifier and no reserved word. -/
def name? (token : Token) : Option String :=
  if token.kind = .identifier ∧ isReserved token.value = false then some token.value else none

/-- The token, which is followed by `rest`, stands where something else is asked for. -/
def unexpected (reading : Reading) (token : Token) (rest : List Token) : Fault :=
  ⟨.expected reading.progress.wanted, blamed token rest⟩

/-- Reads the name of a declaration, which no other template may have. -/
def startDeclaration (reading : Reading) (token : Token) (rest : List Token) :
    Except Fault Reading :=
  match name? token with
  | none => .error (reading.unexpected token rest)
  | some name =>
    if (reading.definitions.lookup name).isSome then
      .error ⟨.duplicateTemplate name, blamed token rest⟩
    else .ok { reading with progress := .named name }

/-- Reads one more token, which is followed by `rest`. -/
def step (reading : Reading) (token : Token) (rest : List Token) : Except Fault Reading :=
  let continueWith (progress : Progress) : Except Fault Reading :=
    .ok { reading with progress := progress }
  match reading.progress, token.kind with
  | .between, _ => reading.startDeclaration token rest
  | .complete, .semicolon => continueWith .between
  | .complete, _ => reading.startDeclaration token rest
  | .named name, .leftParen => continueWith (.opened name [])
  | .opened name parameters, .rightParen => continueWith (.closed name parameters)
  | .opened name parameters, _ =>
    match name? token with
    | none => .error (reading.unexpected token rest)
    | some parameter => continueWith (.listed name (parameters ++ [parameter]))
  | .listed name parameters, .rightParen => continueWith (.closed name parameters)
  | .listed name parameters, .comma => continueWith (.opened name parameters)
  | .closed name parameters, .pathSeparator => continueWith (.separated name parameters)
  | .separated name parameters, .equals => continueWith (.assigned name parameters)
  | .assigned name parameters, .string =>
    (define parameters token).map fun definition =>
      ⟨reading.definitions ++ [(name, definition)], .complete⟩
  | _, _ => .error (reading.unexpected token rest)

/-- Whether the declarations may end here. -/
def isFinished (reading : Reading) : Bool :=
  reading.progress = .between ∨ reading.progress = .complete

/-- Reads the remaining tokens, where `last` is the range of the token before them. -/
def run (reading : Reading) (last : Text.Extent) : List Token → Except Fault Definitions
  | [] =>
    if reading.isFinished then .ok reading.definitions
    else .error ⟨.unexpectedEnd reading.progress.wanted, last⟩
  | token :: rest =>
    match reading.step token rest with
    | .error fault => .error fault
    | .ok reading => reading.run token.extent rest

end Reading

/-- Reads a group text. -/
def readDefinitions (source : Text.Source) : Except Fault Definitions :=
  match tokens source with
  | .error fault => .error fault
  | .ok tokens => Reading.start.run source.firstCharacter tokens

/-! ### Static declarations -/

/-- A sequence of declarations under a name of its own. -/
structure StaticDeclaration where
  name : String
  isPublic : Bool
  definitions : Definitions
deriving DecidableEq

/-- What has been read of a static declaration. -/
inductive StaticReading where
  | start
  /-- The word `pub`. -/
  | published
  /-- Everything up to `static`. -/
  | fixed (isPublic : Bool)
  /-- Everything up to `ref`. -/
  | referenced (isPublic : Bool)
  /-- Everything up to the name. -/
  | named (isPublic : Bool) (name : String)
  /-- The opening brace and part of the declarations. -/
  | inside (isPublic : Bool) (name : String) (reading : Reading)
  /-- All of it. -/
  | complete (declaration : StaticDeclaration)
deriving DecidableEq

namespace StaticReading

/-- Whether a token is the given word. -/
def isWord (word : String) (token : Token) : Bool :=
  token.kind = .identifier ∧ token.value = word

/-- Reads one more token, which is followed by `rest`. -/
def step (reading : StaticReading) (token : Token) (rest : List Token) :
    Except Fault StaticReading :=
  let unexpected (wanted : Expectation) : Except Fault StaticReading :=
    .error ⟨.expected wanted, blamed token rest⟩
  match reading with
  | .start =>
    if isWord "pub" token then .ok .published
    else if isWord "static" token then .ok (.fixed false)
    else unexpected (.keyword "static")
  | .published =>
    if isWord "static" token then .ok (.fixed true) else unexpected (.keyword "static")
  | .fixed isPublic =>
    if isWord "ref" token then .ok (.referenced isPublic) else unexpected (.keyword "ref")
  | .referenced isPublic =>
    match Reading.name? token with
    | some name => .ok (.named isPublic name)
    | none => unexpected .identifier
  | .named isPublic name =>
    if token.kind = .leftBrace then .ok (.inside isPublic name Reading.start)
    else unexpected .openingBrace
  | .inside isPublic name reading =>
    if reading.isFinished ∧ token.kind = .rightBrace then
      .ok (.complete ⟨name, isPublic, reading.definitions⟩)
    else (reading.step token rest).map (.inside isPublic name)
  | .complete _ => .error ⟨.unexpectedToken token.describe, blamed token rest⟩

/-- What is asked for where the text ends too early. -/
def finish (last : Text.Extent) : StaticReading → Except Fault StaticDeclaration
  | .start | .published => .error ⟨.unexpectedEnd (.keyword "static"), last⟩
  | .fixed _ => .error ⟨.unexpectedEnd (.keyword "ref"), last⟩
  | .referenced _ => .error ⟨.unexpectedEnd .identifier, last⟩
  | .named _ _ => .error ⟨.unexpectedEnd .openingBrace, last⟩
  | .inside _ _ reading => .error ⟨.unexpectedEnd reading.progress.wanted, last⟩
  | .complete declaration => .ok declaration

/-- Reads the remaining tokens, where `last` is the range of the token before them. -/
def run (reading : StaticReading) (last : Text.Extent) :
    List Token → Except Fault StaticDeclaration
  | [] => reading.finish last
  | token :: rest =>
    match reading.step token rest with
    | .error fault => .error fault
    | .ok reading => reading.run token.extent rest

end StaticReading

/-- Reads a static declaration. -/
def readStatic (source : Text.Source) : Except Fault StaticDeclaration :=
  match tokens source with
  | .error fault => .error fault
  | .ok tokens => StaticReading.start.run source.firstCharacter tokens

end Group

end TextTemplate
