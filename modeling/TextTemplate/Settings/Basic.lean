/-!
# Settings

How deep templates may include one another, and how loudly a missing template is noted.
-/

namespace TextTemplate

/-- The settings of a rendering. -/
structure Settings where
  /-- The number of inclusions that may be nested; `none` lifts the limit. -/
  includeLimit? : Option Int := some 64
  /-- Whether a missing template is noted as a warning. -/
  warnsOfMissing : Bool := false
deriving DecidableEq, Repr

/-- The weight of a note in the log. -/
inductive Level where
  | debug
  | warning
deriving DecidableEq, Repr

/-- The weight of a note on a missing template. -/
def Settings.missingLevel (settings : Settings) : Level :=
  if settings.warnsOfMissing then .warning else .debug

end TextTemplate
