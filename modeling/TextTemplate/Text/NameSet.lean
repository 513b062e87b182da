/-!
# Finite sets of names

A `NameSet` lists its members in ascending code point order, each once, so two sets with the same
members are equal (`NameSet.ext_of_mem`).
-/

namespace TextTemplate

/-- A finite set of names. -/
structure NameSet where
  /-- The members in ascending order. -/
  toList : List String
  ascending : toList.Pairwise (· < ·)
deriving DecidableEq

namespace NameSet

/-- Puts a name at its place in an ascending list, unless it is there. -/
def insertAscending (name : String) : List String → List String
  | [] => [name]
  | a :: rest =>
    if name < a then name :: a :: rest
    else if a < name then a :: insertAscending name rest
    else a :: rest

theorem mem_insertAscending {name b : String} {names : List String} :
    b ∈ insertAscending name names ↔ b = name ∨ b ∈ names := by
  induction names with
  | nil => simp [insertAscending]
  | cons a rest ih =>
    rw [insertAscending]
    split
    · simp
    · split
      · simp only [List.mem_cons, ih]; grind
      · have : name = a := String.le_antisymm (String.not_lt.1 ‹_›) (String.not_lt.1 ‹_›)
        simp [this]

theorem pairwise_insertAscending {name : String} {names : List String}
    (h : names.Pairwise (· < ·)) : (insertAscending name names).Pairwise (· < ·) := by
  induction names with
  | nil => simp [insertAscending]
  | cons a rest ih =>
    obtain ⟨first, later⟩ := List.pairwise_cons.1 h
    rw [insertAscending]
    split
    · next hlt =>
      refine List.pairwise_cons.2 ⟨fun b hb => ?_, h⟩
      rcases List.mem_cons.1 hb with rfl | hb
      · exact hlt
      · exact String.lt_trans hlt (first b hb)
    · split
      · next hlt =>
        refine List.pairwise_cons.2 ⟨fun b hb => ?_, ih later⟩
        rcases mem_insertAscending.1 hb with rfl | hb
        · exact hlt
        · exact first b hb
      · exact h

/-- The set without members. -/
def empty : NameSet := ⟨[], List.Pairwise.nil⟩

instance : Inhabited NameSet := ⟨empty⟩

/-- The set with one more member. -/
def insert (name : String) (set : NameSet) : NameSet :=
  ⟨insertAscending name set.toList, pairwise_insertAscending set.ascending⟩

/-- The set of the names in a list. -/
def ofList (names : List String) : NameSet := names.foldr insert empty

instance : Membership String NameSet where
  mem set name := name ∈ set.toList

instance (name : String) (set : NameSet) : Decidable (name ∈ set) :=
  inferInstanceAs (Decidable (name ∈ set.toList))

theorem mem_toList {name : String} {set : NameSet} : name ∈ set.toList ↔ name ∈ set := Iff.rfl

@[simp] theorem not_mem_empty {name : String} : name ∉ empty := by
  simp [← mem_toList, empty]

@[simp] theorem mem_insert {name b : String} {set : NameSet} :
    b ∈ set.insert name ↔ b = name ∨ b ∈ set := mem_insertAscending

@[simp] theorem mem_ofList {name : String} {names : List String} :
    name ∈ ofList names ↔ name ∈ names := by
  induction names with
  | nil => simp [ofList]
  | cons a rest ih =>
    have : ofList (a :: rest) = (ofList rest).insert a := rfl
    simp [this, ih]

/-- Ascending lists with the same members are equal. -/
theorem eq_of_mem_iff_of_ascending {l m : List String} (hl : l.Pairwise (· < ·))
    (hm : m.Pairwise (· < ·)) (h : ∀ name, name ∈ l ↔ name ∈ m) : l = m := by
  induction l generalizing m with
  | nil =>
    cases m with
    | nil => rfl
    | cons b m => simpa using h b
  | cons a l ih =>
    cases m with
    | nil => simpa using h a
    | cons b m =>
      have ha := List.pairwise_cons.1 hl
      have hb := List.pairwise_cons.1 hm
      have hab : a = b := by
        rcases List.mem_cons.1 ((h a).1 List.mem_cons_self) with hab | hab
        · exact hab
        · rcases List.mem_cons.1 ((h b).2 List.mem_cons_self) with hba | hba
          · exact hba.symm
          · exact absurd (ha.1 b hba) (String.lt_asymm (hb.1 a hab))
      subst hab
      rw [ih ha.2 hb.2 fun name => ?_]
      have hl' : name ∈ l → name ≠ a := fun hn he => String.lt_irrefl a (he ▸ ha.1 name hn)
      have hm' : name ∈ m → name ≠ a := fun hn he => String.lt_irrefl a (he ▸ hb.1 name hn)
      have := h name
      simp only [List.mem_cons] at this
      grind

/-- Sets with the same members are equal. -/
theorem ext_of_mem {s t : NameSet} (h : ∀ name, name ∈ s ↔ name ∈ t) : s = t := by
  obtain ⟨l, hl⟩ := s
  obtain ⟨m, hm⟩ := t
  obtain rfl : l = m := eq_of_mem_iff_of_ascending hl hm h
  rfl

end NameSet

end TextTemplate
