import TextTemplate.Entries

/-!
# Folders

A folder is a list of files and folders under their paths.  The folders on the way to a file exist
without being listed.

Files hold UTF-8.  A carriage return, alone or before an end of line, is read as an end of line.
-/

namespace TextTemplate

namespace Text

/-- Reads every carriage return, together with an end of line that follows it, as an end of
line. -/
def normalizeLineEnds : List Char → List Char
  | [] => []
  | '\r' :: '\n' :: rest => '\n' :: normalizeLineEnds rest
  | c :: rest => (if c = '\r' then '\n' else c) :: normalizeLineEnds rest

/-- The text that the bytes of a file encode, or `none` if they are not valid UTF-8. -/
def ofBytes? (bytes : List UInt8) : Option String :=
  (String.fromUTF8? ⟨bytes.toArray⟩).map fun s => String.ofList (normalizeLineEnds s.toList)

end Text

/-- The names on the way to a file or folder. -/
abbrev Path := List String

/-- Files and folders by path; a folder has no content. -/
structure Folder where
  entries : List (Path × Option (List UInt8))

namespace Folder

/-- The path with the given spelling: names separated by `/`. -/
def path (spelling : String) : Path :=
  (spelling.splitOn "/").filter fun name => name ≠ "" ∧ name ≠ "."

/-- Why a file cannot be read. -/
inductive ReadError where
  | missing
  | isFolder
  | undecodable
deriving DecidableEq, Repr

/-- Whether something lies inside a folder of this path. -/
def hasInside (folder : Folder) (path : Path) : Bool :=
  folder.entries.any fun entry => path.isPrefixOf entry.1

/-- The text of a file. -/
def readText (folder : Folder) (path : Path) : Except ReadError String :=
  match folder.entries.lookup path with
  | some (some bytes) =>
    match Text.ofBytes? bytes with
    | some s => .ok s
    | none => .error .undecodable
  | some none => .error .isFolder
  | none => if path = [] ∨ folder.hasInside path then .error .isFolder else .error .missing

/-- The names directly in the folder, each once. -/
def names (folder : Folder) : List String :=
  (folder.entries.filterMap fun entry => entry.1.head?).eraseDups

end Folder

end TextTemplate
