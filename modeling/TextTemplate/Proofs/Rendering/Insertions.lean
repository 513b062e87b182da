import Mathlib.Data.List.Induction
import Mathlib.Logic.Function.Basic
import TextTemplate.Proofs.Rendering.Accumulation

/-!
# What insertions amount to

Data that are inserted under one name one after the other amount to a value that can be told from
them at once (`Value.gathered`): the nulls in front are lost, one value that is left stands as it
is, and more values make a list, which the first of them opens with its items if it is a list
itself.  The names stay in the order of their first insertion.

So a path reaches into what is held under a name as long as one value is left, and leads to nothing
when there are more (`Attributes.insertions_in_closed_form`).

Data are inserted as a context, an object that is kept as it is under a new name and changed in
place by what is inserted there later (`Contexts`).  As long as each insertion has a context of its
own, this shows nowhere, and data can be inserted as values (`Contexts.read_insertAll`).
-/

namespace TextTemplate

namespace Value

/-- What values that are inserted under one name amount to. -/
def gathered (values : List Value) : Value :=
  match values.dropWhile isNull with
  | [] => .null
  | [v] => v
  | .list items :: rest => .list (items ++ rest)
  | first :: rest => .list (first :: rest)

/-- A list takes every further value as an item. -/
theorem foldl_accumulate_list (items rest : List Value) :
    rest.foldl accumulate (.list items) = .list (items ++ rest) := by
  induction rest generalizing items with
  | nil => rw [List.append_nil]; rfl
  | cons new rest ih =>
    rw [List.append_cons, ← ih]
    rfl

/-- Accumulating values one after the other leads to what they amount to. -/
theorem foldl_accumulate_eq_gathered (values : List Value) :
    values.foldl accumulate .null = gathered values := by
  induction values with
  | nil => rfl
  | cons first rest ih =>
    cases first with
    | null => exact ih
    | list items =>
      have hlist := foldl_accumulate_list items rest
      cases rest with
      | nil => rfl
      | cons second later => exact hlist
    | _ =>
      cases rest with
      | nil => rfl
      | cons second later => exact foldl_accumulate_list _ later

/-- Only the nulls in front are lost, and only the first list is opened. -/
example : [.null, .list [.int 1], .null, .list [.int 2]].foldl accumulate .null =
    .list [.int 1, .null, .list [.int 2]] :=
  rfl

/-- What at least two values amount to is a list, so that no path leads on from it. -/
theorem navigate_gathered (values : List Value) (segment : String) (path : List String) :
    (gathered values).navigate (segment :: path) =
      match values.dropWhile isNull with
      | [v] => v.navigate (segment :: path)
      | _ => .null := by
  unfold gathered
  generalize values.dropWhile isNull = left
  rcases left with _ | ⟨first, _ | ⟨second, rest⟩⟩
  · rfl
  · rfl
  · cases first <;> rfl

end Value

namespace Rendering

/-- What showing a value adds to a rendering. -/
def shown (v : Value) : Outcome :=
  match v.render with
  | .ok s => Outcome.text s
  | .error node => Outcome.stop (.unexpectedNode node)

theorem shown_null : shown .null = Outcome.text "" := rfl

/-- A path expression shows what the path leads to in the data under its name. -/
theorem expression_path (embed : String → Outcome) (attributes : Attributes) (name : String)
    (path : List String) : expression embed attributes (.path name path) =
      shown ((attributes.dataUnder name).navigate path) := rfl

end Rendering

namespace Attributes

/-- The attributes after data are inserted under names one after the other, each as a context of its
own. -/
def insertAll (attributes : Attributes) (calls : List (String × Value)) : Attributes :=
  calls.foldl (fun attributes call => attributes.insert call.1 call.2) attributes

variable {attributes : Attributes} {name : String} {calls : List (String × Value)}

theorem names_insert (name : String) (data : Value) : (attributes.insert name data).names =
    if name ∈ attributes.names then attributes.names else attributes.names ++ [name] :=
  Entries.keys_put

/-- Where a new name goes to the end and one that is in use stays in its place, the names stand in
the order of their first use. -/
theorem foldl_names_eq_eraseDups {α : Type} (calls : List (String × α)) :
    calls.foldl (fun names call => if call.1 ∈ names then names else names ++ [call.1]) [] =
      (calls.map Prod.fst).eraseDups := by
  induction calls using List.reverseRecOn with
  | nil => rfl
  | append_singleton calls call ih =>
    rw [List.foldl_append, List.foldl_cons, List.foldl_nil, ih, List.map_append,
      List.eraseDups_append]
    by_cases hm : call.1 ∈ calls.map Prod.fst
    · simp [hm, List.removeAll]
    · simp [hm, List.removeAll, List.eraseDups_cons]

theorem names_insertAll (calls : List (String × Value)) :
    (insertAll ∅ calls).names = (calls.map Prod.fst).eraseDups := by
  rw [← foldl_names_eq_eraseDups]
  exact (List.foldl_hom names fun attributes call =>
    (names_insert call.1 call.2).symm).symm

/-- What is held under a name in the end depends on the data inserted under it alone. -/
theorem dataUnder_insertAll (attributes : Attributes) (calls : List (String × Value))
    (name : String) : (attributes.insertAll calls).dataUnder name =
      (Template.addedUnder name calls).foldl Value.accumulate (attributes.dataUnder name) := by
  induction calls generalizing attributes with
  | nil => rfl
  | cons call rest ih =>
    obtain ⟨other, data⟩ := call
    rw [insertAll, List.foldl_cons, ← insertAll, ih, dataUnder_insert]
    by_cases hn : other = name
    · subst hn
      rw [Template.addedUnder_cons_self, List.foldl_cons, if_pos rfl]
    · rw [Template.addedUnder_cons_of_ne hn, if_neg (Ne.symm hn)]

theorem get?_eq_none_iff : attributes.get? name = none ↔ name ∉ attributes.names :=
  Entries.lookup_eq_none_iff

theorem get?_of_mem_names (h : name ∈ attributes.names) :
    attributes.get? name = some (attributes.dataUnder name) := by
  cases hg : attributes.get? name with
  | none => exact absurd h (get?_eq_none_iff.1 hg)
  | some v => rw [dataUnder, hg]; rfl

end Attributes

/-! ### Contexts as objects -/

/-- Attributes as objects: what each context holds at the moment, contexts being told apart by
numbers, and the contexts that are kept under names.  No two contexts hold one and the same list. -/
structure Contexts where
  held : Nat → Value
  entries : List (String × Nat)

namespace Contexts

/-- The contexts that are kept under names. -/
def numbers (contexts : Contexts) : List Nat := contexts.entries.map Prod.snd

/-- What the contexts show under the names. -/
def read (contexts : Contexts) : Attributes :=
  ⟨contexts.entries.map fun entry => (entry.1, contexts.held entry.2)⟩

/-- Inserts a context under a name.  It is kept there itself, unless there is one already: then that
one is changed in place. -/
def insert (name : String) (number : Nat) (contexts : Contexts) : Contexts :=
  match contexts.entries.lookup name with
  | none => { contexts with entries := Entries.put name number contexts.entries }
  | some kept =>
    { contexts with
      held := Function.update contexts.held kept
        ((contexts.held kept).accumulate (contexts.held number)) }

/-- Inserts contexts under names one after the other. -/
def insertAll (contexts : Contexts) (calls : List (String × Nat)) : Contexts :=
  calls.foldl (fun contexts call => contexts.insert call.1 call.2) contexts

variable {contexts : Contexts} {name : String} {number kept n : Nat}

theorem insert_of_none (h : contexts.entries.lookup name = none) :
    contexts.insert name number =
      { contexts with entries := contexts.entries ++ [(name, number)] } := by
  rw [insert, h]
  exact congrArg (Contexts.mk contexts.held)
    (Entries.put_of_not_mem (Entries.lookup_eq_none_iff.1 h))

theorem insert_of_some (h : contexts.entries.lookup name = some kept) :
    contexts.insert name number =
      { contexts with
        held := Function.update contexts.held kept
          ((contexts.held kept).accumulate (contexts.held number)) } := by
  rw [insert, h]

theorem get?_read (contexts : Contexts) (name : String) :
    contexts.read.get? name = (contexts.entries.lookup name).map contexts.held := by
  obtain ⟨held, entries⟩ := contexts
  show (entries.map fun entry => (entry.1, held entry.2)).lookup name =
    (entries.lookup name).map held
  induction entries with
  | nil => rfl
  | cons entry rest ih =>
    rw [List.map_cons, Entries.lookup_cons, Entries.lookup_cons, ih]
    split <;> rfl

/-- Which names there are does not depend on the contexts. -/
theorem names_read_insert : (contexts.insert name number).read.names =
    if name ∈ contexts.read.names then contexts.read.names
    else contexts.read.names ++ [name] := by
  cases h : contexts.entries.lookup name with
  | none =>
    have hget : contexts.read.get? name = none := by rw [get?_read, h]; rfl
    rw [insert_of_none h, if_neg (Attributes.get?_eq_none_iff.1 hget)]
    simp [read, Attributes.names, Entries.keys]
  | some kept =>
    have hget : contexts.read.get? name = some (contexts.held kept) := by rw [get?_read, h]; rfl
    have hm : name ∈ contexts.read.names := by
      by_contra hm
      cases hget.symm.trans (Attributes.get?_eq_none_iff.2 hm)
    rw [insert_of_some h, if_pos hm]
    simp [read, Attributes.names, Entries.keys]

/-- Whatever contexts are inserted, the names stand in the order of their first insertion. -/
theorem names_read_insertAll (held : Nat → Value) (calls : List (String × Nat)) :
    (insertAll ⟨held, []⟩ calls).read.names = (calls.map Prod.fst).eraseDups := by
  rw [← Attributes.foldl_names_eq_eraseDups]
  exact (List.foldl_hom (fun contexts : Contexts => contexts.read.names) fun contexts call =>
    names_read_insert.symm).symm

/-- A context that is kept is kept under one name, so that no other name sees it change. -/
theorem read_insert (hn : contexts.numbers.Nodup) (name : String) (number : Nat) :
    (contexts.insert name number).read =
      contexts.read.insert name (contexts.held number) := by
  cases h : contexts.entries.lookup name with
  | none =>
    have hget : contexts.read.get? name = none := by rw [get?_read, h]; rfl
    have hnew : name ∉ Entries.keys contexts.read.entries := Entries.lookup_eq_none_iff.1 hget
    rw [insert_of_none h, Attributes.insert, hget, Entries.put_of_not_mem hnew]
    simp [read]
  | some kept =>
    have hget : contexts.read.get? name = some (contexts.held kept) := by rw [get?_read, h]; rfl
    obtain ⟨before, after, he, hb⟩ := List.lookup_eq_some_iff.1 h
    have hkey : name ∉ Entries.keys
        (before.map fun entry => (entry.1, contexts.held entry.2)) := by
      simp only [Entries.keys, List.map_map, List.mem_map, Function.comp_apply, not_exists, not_and]
      intro entry hm
      have := hb entry hm
      grind
    rw [numbers, he, List.map_append, List.map_cons, List.nodup_append, List.nodup_cons] at hn
    obtain ⟨-, ⟨hafter, -⟩, hbefore⟩ := hn
    -- only the entry of `kept` sees the change
    have hsame {total : Value} {entries : List (String × Nat)}
        (hk : kept ∉ entries.map Prod.snd) :
        (entries.map fun entry => (entry.1, Function.update contexts.held kept total entry.2)) =
          entries.map fun entry => (entry.1, contexts.held entry.2) := by
      refine List.map_congr_left fun entry hm => ?_
      have hne : entry.2 ≠ kept := fun hkept => hk (List.mem_map.2 ⟨entry, hm, hkept⟩)
      rw [Function.update_of_ne hne]
    rw [insert_of_some h, Attributes.insert, hget]
    simp only [read, he, List.map_append, List.map_cons, Function.update_self]
    rw [hsame hafter, hsame fun hm => hbefore kept hm kept List.mem_cons_self rfl,
      Entries.put_append_cons hkey]

theorem numbers_insert : (contexts.insert name number).numbers = contexts.numbers ∨
    (contexts.insert name number).numbers = contexts.numbers ++ [number] := by
  cases h : contexts.entries.lookup name with
  | none => exact .inr (by simp [insert_of_none h, numbers])
  | some kept => exact .inl (by simp [insert_of_some h, numbers])

/-- Contexts that are not kept do not change. -/
theorem held_insert_of_not_mem (h : n ∉ contexts.numbers) :
    (contexts.insert name number).held n = contexts.held n := by
  cases hl : contexts.entries.lookup name with
  | none => rw [insert_of_none hl]
  | some kept =>
    obtain ⟨before, after, he, -⟩ := List.lookup_eq_some_iff.1 hl
    have hne : n ≠ kept := by
      rintro rfl
      exact h (by simp [numbers, he])
    rw [insert_of_some hl]
    exact Function.update_of_ne hne _ _

/-- **With contexts of their own, insertions show what inserting values shows.** -/
theorem read_insertAll {calls : List (String × Nat)} (hn : contexts.numbers.Nodup)
    (hown : (calls.map Prod.snd).Nodup) (hnew : ∀ call ∈ calls, call.2 ∉ contexts.numbers) :
    (contexts.insertAll calls).read =
      contexts.read.insertAll (calls.map fun call => (call.1, contexts.held call.2)) := by
  induction calls generalizing contexts with
  | nil => rfl
  | cons call rest ih =>
    obtain ⟨name, number⟩ := call
    obtain ⟨hfirst, hrest⟩ := List.forall_mem_cons.1 hnew
    rw [List.map_cons, List.nodup_cons] at hown
    have hnumbers : (contexts.insert name number).numbers.Nodup ∧
        ∀ call ∈ rest, call.2 ∉ (contexts.insert name number).numbers := by
      rcases @numbers_insert contexts name number with h | h <;> rw [h]
      · exact ⟨hn, hrest⟩
      · refine ⟨by simpa [List.nodup_append] using ⟨hn, fun a ha he => hfirst (he ▸ ha)⟩, ?_⟩
        intro call hm hmem
        rcases List.mem_append.1 hmem with hmem | hmem
        · exact hrest call hm hmem
        · exact hown.1 (List.mem_map.2 ⟨call, hm, List.mem_singleton.1 hmem⟩)
    have hheld : (rest.map fun call => (call.1, (contexts.insert name number).held call.2)) =
        rest.map fun call => (call.1, contexts.held call.2) :=
      List.map_congr_left fun call hm => by rw [held_insert_of_not_mem (hrest call hm)]
    have hlater := ih hnumbers.1 hown.2 hnumbers.2
    rw [read_insert hn, hheld] at hlater
    exact hlater

end Contexts

namespace Attributes

variable {name : String} {calls : List (String × Value)}

/-- A context that is inserted twice shows under both names what is inserted under one of them. -/
example : (Contexts.insertAll ⟨fun n => .int n, []⟩ [("x", 0), ("y", 0), ("x", 1)]).read.get? "y" =
    some (.list [.int 0, .int 1]) :=
  rfl

end Attributes

end TextTemplate
