import TextTemplate.Value.Basic

/-!
# Hosts

Values come from a host program, which alone knows what its objects stand for.  A `Host` is what is
asked of it: the data that a value is dumped as, the form that an object of its own has as a value,
and a copy of such an object.

`Host.data` is what is taken over of a value.  A context is copied as it stands, whatever it holds.
Anything else is dumped: a template as the map of its attributes, and an object in the form that it
has.  A static group never gets so far.
-/

namespace TextTemplate

namespace Value

/-- Why a value has no data. -/
inductive DataProblem where
  /-- Bytes that encode no text. -/
  | undecodable
  /-- A value that has no form as data. -/
  | unsupported
  /-- A value inside too many containers. -/
  | tooDeep
  /-- Another reason of the host's. -/
  | other (kind : String)
deriving DecidableEq, Repr

/-- A value that could not be turned into data, by the name of its type, and why, unless it never
can be. -/
structure DataError where
  typeName : String
  problem? : Option DataProblem
deriving DecidableEq, Repr

/-- The text of the failure, as shown to a user. -/
def DataError.message (e : DataError) : String :=
  "cannot serialize value of type " ++ e.typeName

end Value

/-- Why nothing is taken over of a value. -/
inductive HostError where
  /-- The value has no data. -/
  | noData (e : Value.DataError)
  /-- Something else went wrong in the host. -/
  | raised (kind text : String)
deriving DecidableEq, Repr

/-- The text of the failure, as shown to a user. -/
def HostError.message : HostError → String
  | .noData e => e.message
  | .raised _ text => text

/-- Why a value is not dumped. -/
inductive DumpError where
  /-- The value has no data. -/
  | problem (p : Value.DataProblem)
  /-- Something else went wrong in the host. -/
  | raised (e : HostError)
deriving DecidableEq, Repr

/-- The failure to take over a value of the given type that is not dumped. -/
def DumpError.failure (typeName : String) : DumpError → HostError
  | .problem p => .noData ⟨typeName, some p⟩
  | .raised e => e

/-- What is asked of a host program. -/
structure Host where
  /-- The data of a value. -/
  dump : Value → Except DumpError Value
  /-- The form of a foreign object as a value, if it has one. -/
  form? : (typeName : String) → (number : Nat) → Option (Except HostError Value)
  /-- A copy of an object that is no container. -/
  copyObject : Value → Except HostError Value

namespace Host

variable (host : Host)

mutual

/-- A copy of a value, made of copies of all that it holds. -/
def copy : Value → Except HostError Value
  | .list items => (copyItems items).map .list
  | .tuple items => (copyItems items).map .tuple
  | .set items => (copyItems items).map .set
  | .map entries => (copyEntries entries).map .map
  | .context held => (copy held).map .context
  | .template attributes => host.copyObject (.template attributes)
  | .staticGroup => host.copyObject .staticGroup
  | .group => host.copyObject .group
  | .foreign typeName number => host.copyObject (.foreign typeName number)
  | v => .ok v

/-- Copies of the items of a container. -/
def copyItems : List Value → Except HostError (List Value)
  | [] => .ok []
  | item :: rest =>
    match copy item with
    | .error e => .error e
    | .ok v => (copyItems rest).map (v :: ·)

/-- Copies of the entries of a map, of the value of each before its key. -/
def copyEntries : List (Value × Value) → Except HostError (List (Value × Value))
  | [] => .ok []
  | (key, value) :: rest =>
    match copy value with
    | .error e => .error e
    | .ok v =>
      match copy key with
      | .error e => .error e
      | .ok k => (copyEntries rest).map ((k, v) :: ·)

end

/-- Copies of what attributes hold. -/
def copyAttributes : List (String × Value) → Except HostError (List (String × Value))
  | [] => .ok []
  | (name, value) :: rest =>
    match host.copy value with
    | .error e => .error e
    | .ok v => (copyAttributes rest).map ((name, v) :: ·)

/-- The form in which a value is dumped. -/
def form : Value → Except HostError Value
  | .template attributes => (host.copyAttributes attributes).map Value.ofAttributes
  | .staticGroup => .error (.noData ⟨Value.staticGroup.typeName, none⟩)
  | .foreign typeName number =>
    (host.form? typeName number).getD (.ok (.foreign typeName number))
  | v => .ok v

/-- What is taken over of a value. -/
def data : Value → Except HostError Value
  | .context held => host.copy held
  | v =>
    match host.form v with
    | .error e => .error e
    | .ok form => (host.dump form).mapError (DumpError.failure form.typeName)

end Host

end TextTemplate
