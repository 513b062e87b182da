/-!
# Places in ascending tables

Where a number belongs in an ascending table is found by halving the range of places in question
(`upperBound`).  The search finds the place that has all numbers up to the bound in front of it and
all greater ones behind it (`upperBound_append`).
-/

namespace TextTemplate

namespace Text

-- Semireducible, so that `decide` evaluates locations in given texts.
/-- The place of `bound` in an ascending table, behind the entries equal to it, where it is known to
be one of the places from `low` to `high`. -/
@[semireducible] def upperBoundIn (table : Array Nat) (bound low high : Nat)
    (h : high ≤ table.size) : Nat :=
  if _ : low < high then
    let middle := (low + high) / 2
    if bound < table[middle] then upperBoundIn table bound low middle (by omega)
    else upperBoundIn table bound (middle + 1) high h
  else low
termination_by high - low

/-- The place of `bound` in an ascending table: the number of entries that are at most `bound`. -/
def upperBound (table : Array Nat) (bound : Nat) : Nat :=
  upperBoundIn table bound 0 table.size (Nat.le_refl _)

variable {table : Array Nat} {bound low high : Nat} {h : high ≤ table.size}

theorem upperBoundIn_le (hlow : low ≤ table.size) :
    upperBoundIn table bound low high h ≤ table.size := by
  fun_induction upperBoundIn table bound low high h with
  | case1 low high h hlt middle _ ih => exact ih hlow
  | case2 low high h hlt middle _ ih => exact ih (by omega)
  | case3 => exact hlow

theorem upperBound_le_size (table : Array Nat) (bound : Nat) :
    upperBound table bound ≤ table.size := upperBoundIn_le (Nat.zero_le _)

/-- A place that parts the entries up to the bound from the greater ones stays in the range, so it
is the place that is left at the end. -/
theorem upperBoundIn_eq {place : Nat}
    (hparts : ∀ i (hi : i < table.size), table[i] ≤ bound ↔ i < place)
    (hlow : low ≤ place) (hhigh : place ≤ high) :
    upperBoundIn table bound low high h = place := by
  fun_induction upperBoundIn table bound low high h with
  | case1 low high h hlt middle hgreater ih =>
    have hmiddle : ¬ middle < place := fun hm =>
      Nat.not_le_of_lt hgreater ((hparts middle (by omega)).2 hm)
    exact ih hlow (Nat.le_of_not_lt hmiddle)
  | case2 low high h hlt middle hle ih =>
    exact ih ((hparts middle (by omega)).1 (Nat.le_of_not_lt hle)) hhigh
  | case3 low high h hlt => omega

/-- The numbers up to the bound are in front of its place, and the greater ones behind it. -/
theorem upperBound_append {front back : List Nat} (htable : table.toList = front ++ back)
    (hfront : ∀ n ∈ front, n ≤ bound) (hback : ∀ n ∈ back, bound < n) :
    upperBound table bound = front.length := by
  have hsize : table.size = front.length + back.length := by
    rw [← Array.length_toList, htable, List.length_append]
  refine upperBoundIn_eq (fun i hi => ?_) (Nat.zero_le _) (by omega)
  rw [← Array.getElem_toList hi, List.getElem_of_eq htable, List.getElem_append]
  split
  · next hlt => exact iff_of_true (hfront _ (List.getElem_mem _)) hlt
  · next hge => exact iff_of_false (Nat.not_le_of_lt (hback _ (List.getElem_mem _))) hge

example : upperBound #[0, 3, 3, 7] 3 = 3 := by decide

end Text

end TextTemplate
