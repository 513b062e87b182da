import TextTemplate.Value.Basic

/-!
# Reaching into values and accumulating them

A path leads through maps; where it leaves them it leads to null.  A value given again under the
same name does not replace the old one but is added to it.
-/

namespace TextTemplate

namespace Value

/-- The value that a path leads to: null where a key is missing or a value on the way is no map. -/
def navigate : Value → List String → Value
  | v, [] => v
  | .map entries, segment :: path => navigate ((entries.lookup (.text segment)).getD .null) path
  | _, _ :: _ => .null

@[simp] theorem navigate_nil (v : Value) : v.navigate [] = v := by
  rw [navigate]

/-- The value after another one is added: it replaces null, becomes the last item of a list, and
makes a list of two out of anything else. -/
def accumulate : Value → Value → Value
  | .null, new => new
  | .list items, new => .list (items ++ [new])
  | old, new => .list [old, new]

end Value

end TextTemplate
