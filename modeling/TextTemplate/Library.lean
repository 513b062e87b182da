import TextTemplate.Folder
import TextTemplate.Template

/-!
# Libraries of groups

A group is kept in a file whose name ends in `.stg`.  The library of a folder holds the groups of
all such files directly in it, in ascending order of the file names, each under the file's name
without that ending.
-/

namespace TextTemplate

namespace Library

/-- Why a group cannot be loaded. -/
inductive LoadError where
  | read (e : Folder.ReadError)
  | compile (e : CompileError)

/-- Loads the group in a file. -/
def loadGroup (folder : Folder) (path : Path) : Except LoadError Group :=
  match folder.readText path with
  | .error e => .error (.read e)
  | .ok text =>
    match compileGroup text with
    | .error e => .error (.compile e)
    | .ok group => .ok group

/-- The ending of the names of group files. -/
def ending : List Char := ['.', 's', 't', 'g']

/-- Whether a file of this name holds a group. -/
def isGroupFile (name : String) : Bool := ending.isSuffixOf name.toList

/-- The name of a group file without the ending, unless nothing else is left. -/
def stem (name : String) : String :=
  let bare := name.toList.take (name.toList.length - ending.length)
  if bare.isEmpty then name else String.ofList bare

/-- Puts a name before the first name that is greater. -/
def insertName (name : String) : List String → List String
  | [] => [name]
  | a :: rest => if name ≤ a then name :: a :: rest else a :: insertName name rest

/-- The names of the group files directly in a folder, in ascending order. -/
def groupFiles (folder : Folder) : List String :=
  (folder.names.filter isGroupFile).foldr insertName []

/-- Loads the groups in the given files; the first one that fails ends it. -/
def loadAll (folder : Folder) : List String → Except LoadError (List (String × Group))
  | [] => .ok []
  | name :: rest =>
    match loadGroup folder [name] with
    | .error e => .error e
    | .ok group => (loadAll folder rest).map ((stem name, group) :: ·)

/-- Loads the library of a folder.  Of two files with the same stem the later one wins. -/
def loadGroups (folder : Folder) : Except LoadError (List (String × Group)) :=
  (loadAll folder (groupFiles folder)).map Entries.ofList

end Library

end TextTemplate
