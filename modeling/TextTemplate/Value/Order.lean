import TextTemplate.Value.Basic

/-!
# The order of values

Numbers have an order, and so have texts and bytes.  No other values have one, nor have values of
two of these kinds.
-/

namespace TextTemplate

namespace Value

/-- Whether the value is a truth value or a number. -/
def isNumber : Value → Bool
  | .bool _ | .int _ | .float _ => true
  | _ => false

/-- Where a truth value or a number stands among all numbers; an undefined number stands
nowhere. -/
def rank? : Value → Option (Int × Int)
  | .float x => x.rank?
  | v => v.integer?.map fun n => (0, n * Nat.pow 2 1074)

/-- Whether a number comes before another one.  An undefined number comes before none, nor any
before it. -/
def numberBefore (v w : Value) : Bool :=
  match v.rank?, w.rank? with
  | some a, some b => a.1 < b.1 || (a.1 == b.1 && a.2 < b.2)
  | _, _ => false

/-- Whether a value comes before another one, or `none` if the two have no order. -/
def before? : Value → Value → Option Bool
  | .text s, .text t => some (s < t)
  | .bytes a, .bytes b => some (a < b)
  | v, w => if v.isNumber && w.isNumber then some (v.numberBefore w) else none

end Value

end TextTemplate
