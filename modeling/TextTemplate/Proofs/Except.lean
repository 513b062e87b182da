/-!
# Answers that may fail

When mapping over an answer, or over its failure, leaves a result, and when it leaves a failure;
and the same for one answer after another, also where answers come with a state.
-/

namespace Except

variable {ε ε' α β : Type} {f : α → β} {g : ε → ε'} {x : Except ε α}

@[simp] theorem map_eq_ok_iff {b : β} : x.map f = .ok b ↔ ∃ a, x = .ok a ∧ f a = b := by
  cases x <;> simp [Except.map]

@[simp] theorem map_eq_error_iff {e : ε} : x.map f = .error e ↔ x = .error e := by
  cases x <;> simp [Except.map]

theorem bind_eq_ok_iff {k : α → Except ε β} {b : β} :
    x >>= k = .ok b ↔ ∃ a, x = .ok a ∧ k a = .ok b := by
  cases x <;> simp [Bind.bind, Except.bind]

theorem bind_eq_error_iff {k : α → Except ε β} {e : ε} :
    x >>= k = .error e ↔ x = .error e ∨ ∃ a, x = .ok a ∧ k a = .error e := by
  cases x <;> simp [Bind.bind, Except.bind]

@[simp] theorem mapError_ok {a : α} : (ok a : Except ε α).mapError g = ok a := rfl

@[simp] theorem mapError_error {e : ε} : (error e : Except ε α).mapError g = error (g e) := rfl

@[simp] theorem mapError_eq_ok_iff {a : α} : x.mapError g = .ok a ↔ x = .ok a := by
  cases x <;> simp

theorem mapError_map : (x.map f).mapError g = (x.mapError g).map f := by
  cases x <;> rfl

/-- Steps that agree up to their failures agree so one after the other. -/
theorem mapError_bind_congr {x x' : Except ε α} {k k' : α → Except ε β}
    (hx : x'.mapError g = x.mapError g) (hk : ∀ a, (k' a).mapError g = (k a).mapError g) :
    (x'.bind k').mapError g = (x.bind k).mapError g := by
  cases x with
  | error e =>
    cases x' with
    | error e' => exact congrArg Except.error (Except.error.inj hx)
    | ok a' => cases hx
  | ok a =>
    cases x' with
    | error e' => cases hx
    | ok a' =>
      obtain rfl : a' = a := Except.ok.inj hx
      exact hk a'

end Except

namespace EStateM

variable {ε σ α β : Type} {x : EStateM ε σ α} {k : α → EStateM ε σ β} {s last : σ} {b : β}

/-- Two steps give a result when both do, the second from the state that the first one leaves. -/
theorem run_bind_eq_ok_iff : (x >>= k).run s = .ok b last ↔
    ∃ a next, x.run s = .ok a next ∧ (k a).run next = .ok b last := by
  simp only [EStateM.run, bind, EStateM.bind]
  cases x s <;> simp [and_assoc]

end EStateM
