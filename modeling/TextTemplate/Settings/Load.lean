import TextTemplate.Folder
import TextTemplate.Settings.Basic
import TextTemplate.Settings.Document
import TextTemplate.Text.NameSet
import TextTemplate.Value.Display
import TextTemplate.Value.Order

/-!
# Loading settings

Settings are read from a file in a folder.  A file that is missing, or that holds nothing, stands
for the default settings.  A file that holds a map may give the version of its form, the limit on
nested inclusions and whether missing templates are noted as warnings; everything else is refused,
the version first, then unknown keys, then the limit, then the other setting.

Unknown keys are put in order and listed, which fails for keys without an order and for keys that
are no texts.
-/

namespace TextTemplate

namespace Settings

/-- Why unknown keys cannot be listed. -/
inductive KeyFault where
  /-- The first key in order is no text. -/
  | noText (key : Value)
  /-- Two keys have no order.  Which two of them are named, and in which order, is not determined;
  here it is the first ones in the file. -/
  | noOrder (key other : Value)

/-- The text of the failure, as shown to a user. -/
def KeyFault.message : KeyFault → String
  | .noText key => "sequence item 0: expected str instance, " ++ key.typeName ++ " found"
  | .noOrder key other =>
    "'<' not supported between instances of '" ++ key.typeName ++ "' and '" ++
      other.typeName ++ "'"

/-- Why a settings file is not loaded. -/
inductive LoadError where
  /-- The file is a folder. -/
  | isFolder
  /-- The file holds no text. -/
  | undecodable
  /-- The text holds no document. -/
  | noDocument
  /-- The document is no map. -/
  | noMap
  /-- The form of the settings is of another version. -/
  | version (given : Value)
  /-- There are keys that name no setting. -/
  | unknown (names : NameSet)
  /-- There are keys that name no setting, and they cannot be listed. -/
  | unnamed (fault : KeyFault)
  /-- The limit is neither a positive integer nor null. -/
  | limit (given : Value)
  /-- Whether to warn is no truth value. -/
  | warns (given : Value)

/-- The text of the failure, as shown to a user, about the file at `path`. -/
def LoadError.message (path : String) : LoadError → String
  | .isFolder => "[Errno 21] Is a directory: '" ++ path ++ "'"
  | .undecodable => path ++ ": invalid UTF-8"
  | .noDocument => path ++ ": invalid YAML"
  | .noMap => path ++ ": top-level mapping expected"
  | .version given =>
    path ++ ": unsupported settings schema " ++ given.plainDisplay ++ " (expected 1)"
  | .unknown names => path ++ ": unknown settings: " ++ String.intercalate ", " names.toList
  | .unnamed fault => fault.message
  | .limit given =>
    path ++ ": max_include_depth must be a positive integer or null, got " ++ given.display
  | .warns given => path ++ ": warn_missing_includes must be boolean, got " ++ given.display

/-- Whether the failure is a refusal of what the file says, as the checks of settings are to make;
the others are failures of reading and of making a refusal. -/
def LoadError.isConfigError : LoadError → Bool
  | .isFolder | .undecodable | .unnamed _ => false
  | .noDocument | .noMap | .version _ | .unknown _ | .limit _ | .warns _ => true

/-- The keys of a settings file. -/
def versionKey : String := "schema_version"

/-- The key of the limit on nested inclusions. -/
def limitKey : String := "max_include_depth"

/-- The key of the setting for missing templates. -/
def warnsKey : String := "warn_missing_includes"

/-- The version of the form of the settings. -/
def formVersion : Int := 1

/-- Whether a value holds nothing: null, false, a zero, or something empty. -/
def isNothing : Value → Bool
  | .null => true
  | .bool b => ! b
  | .int n => n == 0
  | .float x => x.equalsInt 0
  | .text s => s.isEmpty
  | .list items | .tuple items | .set items => items.isEmpty
  | .map entries => entries.isEmpty
  | .bytes data => data.isEmpty
  | .template _ | .staticGroup | .group | .context _ | .foreign _ _ => false

/-- The keys of a map that name no setting. -/
def unknownKeys (entries : List (Value × Value)) : List Value :=
  (Entries.keys entries).filter fun key =>
    ! ([versionKey, limitKey, warnsKey].any fun known => key == .text known)

/-- The texts that all values are, unless one of them is no text. -/
def allTexts : List Value → Option (List String)
  | [] => some []
  | .text s :: rest => (allTexts rest).map (s :: ·)
  | _ :: _ => none

/-- The first in order of some values, or two of them that have no order. -/
def firstInOrder (least : Value) : List Value → Except (Value × Value) Value
  | [] => .ok least
  | v :: rest =>
    match v.before? least with
    | none => .error (v, least)
    | some true => firstInOrder v rest
    | some false => firstInOrder least rest

/-- Why unknown keys that are not all texts cannot be listed. -/
def keyFault (key : Value) (rest : List Value) : KeyFault :=
  match firstInOrder key rest with
  | .ok least => .noText least
  | .error (v, w) => .noOrder v w

/-- Checks that all keys are known. -/
def checkKeys (entries : List (Value × Value)) : Except LoadError Unit :=
  match unknownKeys entries with
  | [] => .ok ()
  | key :: rest =>
    match allTexts (key :: rest) with
    | some names => .error (.unknown (NameSet.ofList names))
    | none => .error (.unnamed (keyFault key rest))

/-- Checks the version, where it is given. -/
def checkVersion (entries : List (Value × Value)) : Except LoadError Unit :=
  match entries.lookup (.text versionKey) with
  | none => .ok ()
  | some given => if given == .int formVersion then .ok () else .error (.version given)

/-- The limit that a value stands for. -/
def limitOf : Value → Except LoadError (Option Int)
  | .null => .ok none
  | .int n => if 1 ≤ n then .ok (some n) else .error (.limit (.int n))
  | v => .error (.limit v)

/-- The truth value that a value stands for. -/
def warnsOf : Value → Except LoadError Bool
  | .bool b => .ok b
  | v => .error (.warns v)

/-- A setting in a map: what the value under its key stands for, or the default value. -/
def setting {α : Type} (key : String) (default : α) (valueOf : Value → Except LoadError α)
    (entries : List (Value × Value)) : Except LoadError α :=
  match entries.lookup (.text key) with
  | none => .ok default
  | some given => valueOf given

/-- The settings in a map. -/
def ofEntries (entries : List (Value × Value)) : Except LoadError Settings := do
  checkVersion entries
  checkKeys entries
  let limit? ← setting limitKey ({} : Settings).includeLimit? limitOf entries
  let warns ← setting warnsKey ({} : Settings).warnsOfMissing warnsOf entries
  return ⟨limit?, warns⟩

/-- The settings in a document. -/
def ofDocument (document : Value) : Except LoadError Settings :=
  if isNothing document then .ok {}
  else
    match document with
    | .map entries => ofEntries entries
    | _ => .error .noMap

/-- Loads the settings in a file, where `read` gives the document that a text holds. -/
def loadWith (read : String → Option Value) (folder : Folder) (path : Path) :
    Except LoadError Settings :=
  match folder.readText path with
  | .error .missing => .ok {}
  | .error .isFolder => .error .isFolder
  | .error .undecodable => .error .undecodable
  | .ok text =>
    match read text with
    | none => .error .noDocument
    | some document => ofDocument document

/-- Loads the settings in a file. -/
def load : Folder → Path → Except LoadError Settings := loadWith Document.read

end Settings

end TextTemplate
