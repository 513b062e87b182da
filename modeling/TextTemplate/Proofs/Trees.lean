import TextTemplate.Rendering
import TextTemplate.Template
import TextTemplate.Proofs.Data

/-!
# Trees of data

A *tree* is null, a truth value, a number, a text, a list of trees or a map to trees.  Data are
trees (`Value.IsData.isTree`), so every attribute that adding values leads to is one, unless a
context brings in something else (`Template.areTrees_of_add`).  Trees are what rendering can show:
reaching into one leads to a tree, and a tree has a text (`Value.exists_render_eq_ok`).
-/

namespace TextTemplate

namespace Value

mutual

/-- Whether the value is a tree of null, truth values, numbers, texts, lists and maps. -/
def isTree : Value → Bool
  | .null | .bool _ | .int _ | .float _ | .text _ => true
  | .list items => areTrees items
  | .map entries => leadToTrees entries
  | _ => false

/-- Whether all items are trees. -/
def areTrees : List Value → Bool
  | [] => true
  | item :: rest => isTree item && areTrees rest

/-- Whether the values of all entries are trees. -/
def leadToTrees : List (Value × Value) → Bool
  | [] => true
  | (_, value) :: rest => isTree value && leadToTrees rest

end

theorem areTrees_eq_all (items : List Value) : areTrees items = items.all isTree := by
  induction items with
  | nil => rfl
  | cons item rest ih => rw [areTrees, List.all_cons, ih]

theorem leadToTrees_eq_all (entries : List (Value × Value)) :
    leadToTrees entries = entries.all fun entry => isTree entry.2 := by
  induction entries with
  | nil => rfl
  | cons entry rest ih => rw [leadToTrees, List.all_cons, ih]

/-! ### Data are trees -/

theorem IsData.isTree {v : Value} (h : v.IsData) : v.isTree = true := by
  induction h with
  | list _ ih =>
    rw [Value.isTree, areTrees_eq_all]
    exact List.all_eq_true.2 ih
  | map _ _ ih =>
    rw [ofAttributes, Value.isTree, leadToTrees_eq_all, List.all_map]
    exact List.all_eq_true.2 ih
  | _ => rfl

/-! ### Trees can be shown -/

theorem isTree_lookup {entries : List (Value × Value)} (h : leadToTrees entries = true)
    (key : Value) : ((entries.lookup key).getD .null).isTree = true := by
  induction entries with
  | nil => rfl
  | cons entry rest ih =>
    rw [leadToTrees, Bool.and_eq_true] at h
    rw [List.lookup_cons]
    split
    · exact h.1
    · exact ih h.2

theorem isTree_navigate {v : Value} (h : v.isTree = true) (path : List String) :
    (v.navigate path).isTree = true := by
  induction path generalizing v with
  | nil => unfold navigate; exact h
  | cons segment path ih =>
    cases v with
    | map entries => rw [navigate]; exact ih (isTree_lookup h _)
    | _ => rfl

theorem isTree_accumulate {old new : Value} (ho : old.isTree = true) (hn : new.isTree = true) :
    (old.accumulate new).isTree = true := by
  cases old with
  | null => exact hn
  | bool | int | float | text => simp [accumulate, isTree, areTrees, hn]
  | list items =>
    rw [isTree, areTrees_eq_all] at ho
    simp [accumulate, isTree, areTrees_eq_all, ho, hn]
  | map entries =>
    rw [isTree] at ho
    simp [accumulate, isTree, areTrees, ho, hn]
  | _ => cases ho

mutual

theorem exists_render_eq_ok {v : Value} (h : v.isTree = true) : ∃ s, v.render = .ok s := by
  cases v with
  | null | bool | int | float | text | map => exact ⟨_, rfl⟩
  | list items => exact exists_renderItems_eq_ok h
  | _ => cases h

theorem exists_renderItems_eq_ok {items : List Value} (h : areTrees items = true) :
    ∃ s, renderItems items = .ok s := by
  cases items with
  | nil => exact ⟨_, rfl⟩
  | cons item rest =>
    rw [areTrees, Bool.and_eq_true] at h
    obtain ⟨s, hs⟩ := exists_render_eq_ok h.1
    obtain ⟨t, ht⟩ := exists_renderItems_eq_ok h.2
    exact ⟨s ++ t, by rw [renderItems, hs, ht]; rfl⟩

end

end Value

/-! ### Attributes -/

namespace Attributes

/-- All attributes are trees. -/
def AreTrees (attributes : Attributes) : Prop :=
  ∀ name v, attributes.get? name = some v → v.isTree = true

theorem AreData.areTrees {attributes : Attributes} (h : attributes.AreData) :
    attributes.AreTrees := fun _ _ hv => (h.isData_get hv).isTree

theorem areTrees_empty : AreTrees ∅ := by
  intro name v h
  cases h

theorem AreTrees.insert {attributes : Attributes} (h : attributes.AreTrees) (name : String)
    {data : Value} (hd : data.isTree = true) : (attributes.insert name data).AreTrees := by
  intro other v hv
  simp only [get?, Attributes.insert, Entries.lookup_put] at hv
  split at hv
  · cases hv
    split
    · exact hd
    · next old ho => exact Value.isTree_accumulate (h name old ho) hd
  · exact h other v hv

end Attributes

theorem Template.areTrees_of_add {host : Host} (hd : host.DumpsData) {template after : Template}
    {name : String} {value : Value} (hv : value.HoldsData) (h : template.attributes.AreTrees)
    (ha : (add host name value).run template = .ok () after) : after.attributes.AreTrees := by
  obtain ⟨-, data, hdata, rfl⟩ := run_add_eq_ok_iff.1 ha
  exact h.insert name (Host.isData_of_data hd hv hdata).isTree

namespace Rendering

/-- A tree under a name, or nothing there, has a text along every path. -/
theorem exists_showValue_eq_text {attributes : Attributes} (h : attributes.AreTrees)
    (name : String) (path : List String) :
    ∃ s, showValue attributes name path = Outcome.text s := by
  have ht : ((attributes.get? name).getD .null).isTree = true := by
    cases hg : attributes.get? name with
    | none => rfl
    | some v => exact h name v hg
  obtain ⟨s, hs⟩ := Value.exists_render_eq_ok (Value.isTree_navigate ht path)
  exact ⟨s, by rw [showValue, hs]⟩

end Rendering

end TextTemplate
