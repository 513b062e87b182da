import TextTemplate.Proofs.Rendering.Accumulation

/-!
# Refused additions

A call of `add` fails for its name, whatever the value, or else because the host gives nothing for
its value.  Either way it leaves the template as it found it (`Template.eq_of_run_add_eq_error`).
So a run of calls ends where the successful ones among them lead, each of which succeeds again when
the others are left out (`Template.refused_additions_leave_no_trace`).  A template that declares
parameters never holds an attribute that is not among them (`Template.mem_parameters_of_mem_names`).

All this holds for every host, whatever it dumps and whatever goes wrong in it.
-/

namespace TextTemplate

/-- Inserting data brings in no name but its own. -/
theorem Attributes.mem_names_insert {attributes : Attributes} {name other : String} {data : Value} :
    other ∈ (attributes.insert name data).names ↔ other = name ∨ other ∈ attributes.names := by
  simp only [names, insert, Entries.keys_put]
  split
  · grind
  · simp [or_comm]

namespace Template

/-- A call of `add`.  Its value may be made of the template as it is at that moment: a template can
be added to itself. -/
structure Addition where
  name : String
  value : Template → Value

/-- Makes a call. -/
def Addition.perform (host : Host) (call : Addition) : EStateM AddError Template Unit := do
  let template ← get
  add host call.name (call.value template)

/-- The template that a call leaves, whether it succeeds or fails. -/
def attempt (host : Host) (template : Template) (call : Addition) : Template :=
  leftBy ((call.perform host).run template)

/-- The template that calls leave, whatever becomes of each. -/
def attemptAll (host : Host) (template : Template) (calls : List Addition) : Template :=
  calls.foldl (attempt host) template

/-- The calls of a run that succeed, in order. -/
def succeeding (host : Host) (template : Template) : List Addition → List Addition
  | [] => []
  | call :: rest =>
    match (call.perform host).run template with
    | .ok _ next => call :: succeeding host next rest
    | .error _ left => succeeding host left rest

variable {host : Host} {template next : Template} {call : Addition} {calls rest : List Addition}
  {name : String} {parameters : NameSet}

/-! ### One call -/

theorem accepts_eq_false_iff {definition : Definition} : definition.accepts name = false ↔
    ∃ parameters, definition.parameters? = some parameters ∧ name ∉ parameters := by
  unfold Definition.accepts
  cases definition.parameters? <;> simp

theorem attempt_of_ok (h : (call.perform host).run template = .ok () next) :
    template.attempt host call = next := by
  rw [attempt, h, leftBy]

theorem attempt_of_error {e : AddError} (h : (call.perform host).run template = .error e next) :
    template.attempt host call = template := by
  rw [attempt, h, leftBy]
  exact eq_of_run_add_eq_error h

/-! ### Runs of calls -/

theorem attemptAll_cons : template.attemptAll host (call :: rest) =
    (template.attempt host call).attemptAll host rest := rfl

theorem succeeding_of_ok (h : (call.perform host).run template = .ok () next) :
    template.succeeding host (call :: rest) = call :: next.succeeding host rest := by
  rw [succeeding, h]

theorem succeeding_of_error {e : AddError}
    (h : (call.perform host).run template = .error e next) :
    template.succeeding host (call :: rest) = template.succeeding host rest := by
  rw [succeeding, h]
  exact congrArg (succeeding host · rest) (eq_of_run_add_eq_error h)

/-- The successful calls all succeed when the others are left out, and lead to the same template. -/
theorem run_forM_succeeding (host : Host) (template : Template) (calls : List Addition) :
    ((template.succeeding host calls).forM (Addition.perform host)).run template =
      .ok () (template.attemptAll host calls) := by
  induction calls generalizing template with
  | nil => rfl
  | cons call rest ih =>
    rw [attemptAll_cons]
    cases h : (call.perform host).run template with
    | ok _ next =>
      rw [succeeding_of_ok h, attempt_of_ok h]
      exact EStateM.run_bind_eq_ok_iff.2 ⟨(), next, h, ih next⟩
    | error e left =>
      rw [succeeding_of_error h, attempt_of_error h]
      exact ih template

/-! ### Declared names -/

/-- The template accepts the names of all its attributes. -/
def HoldsDeclared (template : Template) : Prop :=
  ∀ name ∈ template.attributes.names, template.definition.accepts name = true

theorem definition_attempt (host : Host) (template : Template) (call : Addition) :
    (template.attempt host call).definition = template.definition := by
  cases h : (call.perform host).run template with
  | error e left => rw [attempt_of_error h]
  | ok _ next =>
    obtain ⟨-, data, -, rfl⟩ := run_add_eq_ok_iff.1 h
    rw [attempt_of_ok h, definition_insert]

theorem definition_attemptAll (host : Host) (template : Template) (calls : List Addition) :
    (template.attemptAll host calls).definition = template.definition := by
  induction calls generalizing template with
  | nil => rfl
  | cons call rest ih => rw [attemptAll_cons, ih, definition_attempt]

/-- A call brings in no name but its own, and that one only if it is accepted. -/
theorem HoldsDeclared.attempt (h : template.HoldsDeclared) (host : Host) (call : Addition) :
    (template.attempt host call).HoldsDeclared := by
  cases hr : (call.perform host).run template with
  | error e left =>
    rw [attempt_of_error hr]
    exact h
  | ok _ next =>
    obtain ⟨hn, data, -, rfl⟩ := run_add_eq_ok_iff.1 hr
    rw [attempt_of_ok hr]
    intro name hm
    rcases Attributes.mem_names_insert.1 hm with rfl | hm
    · exact hn
    · exact h name hm

theorem HoldsDeclared.attemptAll (h : template.HoldsDeclared) (host : Host)
    (calls : List Addition) : (template.attemptAll host calls).HoldsDeclared := by
  induction calls generalizing template with
  | nil => exact h
  | cons call rest ih =>
    rw [attemptAll_cons]
    exact ih (h.attempt host call)

/-- The templates that calls lead to hold declared attributes only; without parameters to declare,
none. -/
theorem mem_parameters_of_mem_names {group : Group} {definition : Definition}
    (hp : definition.parameters? = some parameters) (host : Host) (calls : List Addition) :
    ∀ name ∈ (attemptAll host ⟨definition, group, ∅⟩ calls).attributes.names,
      name ∈ parameters := by
  have hempty : HoldsDeclared ⟨definition, group, ∅⟩ := by
    intro name hm
    cases hm
  intro name hm
  have ha := hempty.attemptAll host calls name hm
  rw [definition_attemptAll] at ha
  simpa [Definition.accepts, hp] using ha

theorem attributes_eq_empty_of_names {attributes : Attributes}
    (h : ∀ name ∈ attributes.names, name ∈ NameSet.empty) : attributes = ∅ := by
  obtain ⟨entries⟩ := attributes
  cases entries with
  | nil => rfl
  | cons entry rest => exact absurd (h entry.1 List.mem_cons_self) NameSet.not_mem_empty

end Template

end TextTemplate
