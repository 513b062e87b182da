import TextTemplate.Proofs.Rendering.Closed

/-!
# Accumulation

A value that is added under a name in use changes the shape of what is held there: null gives way to
it, a list grows by it, and anything else becomes a list with it.  The text does not depend on the
shape: `Value.render_accumulate` appends the new text to the old one in every case, and where one of
the two has none, it is the first of them that tells why.  So an attribute shows the texts of all
that was taken over of the values added under its name, in the order in which they were added
(`Template.attribute_shows_all_added`), whatever the host makes of values, and the order between
values of different names does not show.
-/

namespace TextTemplate

namespace Value

variable {old new : Value}

/-! ### The text of what is accumulated -/

theorem renderItems_append (items later : List Value) : renderItems (items ++ later) =
    (renderItems items).bind fun s => (renderItems later).map (s ++ ·) := by
  induction items with
  | nil =>
    show renderItems later = (renderItems later).map ("" ++ ·)
    cases renderItems later <;> simp [Except.map]
  | cons item rest ih =>
    rw [List.cons_append, renderItems, renderItems, ih]
    cases item.render with
    | error e => rfl
    | ok s =>
      cases renderItems rest with
      | error e => rfl
      | ok t => cases renderItems later <;> simp [Except.map, Except.bind, String.append_assoc]

theorem renderItems_singleton (v : Value) : renderItems [v] = v.render := by
  rw [renderItems]
  cases v.render <;> simp [renderItems, Except.map]

/-- **What is accumulated reads on**: the text of the new value follows that of the old one,
whatever their shapes. -/
theorem render_accumulate (old new : Value) : (old.accumulate new).render =
    old.render.bind fun s => new.render.map (s ++ ·) := by
  have hpair : renderItems [old, new] = old.render.bind fun s => new.render.map (s ++ ·) := by
    rw [← List.singleton_append, renderItems_append, renderItems_singleton, renderItems_singleton]
  cases old with
  | null =>
    show new.render = new.render.map ("" ++ ·)
    cases new.render <;> simp [Except.map]
  | list items =>
    show renderItems (items ++ [new]) = _
    rw [renderItems_append, renderItems_singleton]
    rfl
  | _ => exact hpair

/-- The texts of values that are accumulated one after the other follow that of what was held. -/
theorem render_foldl_accumulate (held : Value) (values : List Value) :
    (values.foldl accumulate held).render =
      held.render.bind fun s => (values.mapM render).map fun texts => s ++ String.join texts := by
  induction values generalizing held with
  | nil =>
    rw [List.foldl_nil, List.mapM_nil]
    cases held.render <;> simp [Except.bind, Except.map, pure, Except.pure]
  | cons value rest ih =>
    rw [List.foldl_cons, ih, render_accumulate, List.mapM_cons]
    cases held.render with
    | error e => rfl
    | ok s =>
      cases value.render with
      | error e => rfl
      | ok t =>
        cases rest.mapM render <;>
          simp [Except.bind, Except.map, bind, pure, Except.pure, String.append_assoc]

end Value

theorem Attributes.dataUnder_empty (name : String) : (∅ : Attributes).dataUnder name = .null := rfl

/-- Inserting data changes what is held under their own name only. -/
theorem Attributes.dataUnder_insert (attributes : Attributes) (name other : String)
    (data : Value) : (attributes.insert name data).dataUnder other =
      if other = name then (attributes.dataUnder name).accumulate data
      else attributes.dataUnder other := by
  simp only [dataUnder, get?, insert, Entries.lookup_put]
  by_cases ho : other = name
  · rw [if_pos ho, if_pos ho]
    cases attributes.entries.lookup name <;> rfl
  · rw [if_neg ho, if_neg ho]

/-! ### Sequences of additions -/

namespace Template

/-- Adds values under names one after the other, up to the first failure. -/
def addAll (host : Host) : List (String × Value) → EStateM AddError Template Unit
  | [] => pure ()
  | (name, value) :: rest => do
    add host name value
    addAll host rest

/-- The values that are added under a name, in order. -/
def addedUnder (name : String) (calls : List (String × Value)) : List Value :=
  (calls.filter fun call => call.1 = name).map Prod.snd

variable {host : Host} {template after : Template} {name : String} {value : Value}
  {calls rest : List (String × Value)}

theorem run_addAll_nil_eq_ok_iff :
    (addAll host []).run template = .ok () after ↔ template = after := by
  simp [addAll, EStateM.run, pure, EStateM.pure]

theorem run_addAll_cons_eq_ok_iff :
    (addAll host ((name, value) :: rest)).run template = .ok () after ↔
      ∃ data, host.data value = .ok data ∧ template.definition.accepts name = true ∧
        (addAll host rest).run (template.insert name data) = .ok () after := by
  rw [addAll, EStateM.run_bind_eq_ok_iff]
  constructor
  · rintro ⟨_, next, ha, hr⟩
    obtain ⟨hn, data, hd, rfl⟩ := run_add_eq_ok_iff.1 ha
    exact ⟨data, hd, hn, hr⟩
  · rintro ⟨data, hd, hn, hr⟩
    exact ⟨(), _, run_add_eq_ok_iff.2 ⟨hn, data, hd, rfl⟩, hr⟩

theorem addedUnder_cons_self : addedUnder name ((name, value) :: rest) =
    value :: addedUnder name rest := by
  simp [addedUnder]

theorem addedUnder_cons_of_ne {other : String} (h : other ≠ name) :
    addedUnder name ((other, value) :: rest) = addedUnder name rest := by
  simp [addedUnder, h]

/-- Adding values changes neither the definition nor the group. -/
theorem definition_and_group_of_addAll (h : (addAll host calls).run template = .ok () after) :
    after.definition = template.definition ∧ after.group = template.group := by
  induction calls generalizing template with
  | nil =>
    obtain rfl := run_addAll_nil_eq_ok_iff.1 h
    exact ⟨rfl, rfl⟩
  | cons call rest ih =>
    obtain ⟨data, -, -, hr⟩ := run_addAll_cons_eq_ok_iff.1 h
    have hkept := ih hr
    exact hkept

/-- Something was taken over of all values that were added.  What is held under a name in the end
depends on what was taken over of those added under it, and on their order, but not on those added
under other names in between. -/
theorem exists_data_of_addAll (h : (addAll host calls).run template = .ok () after)
    (name : String) : ∃ taken, (addedUnder name calls).mapM host.data = .ok taken ∧
      after.attributes.dataUnder name =
        taken.foldl Value.accumulate (template.attributes.dataUnder name) := by
  induction calls generalizing template with
  | nil =>
    obtain rfl := run_addAll_nil_eq_ok_iff.1 h
    exact ⟨[], rfl, rfl⟩
  | cons call rest ih =>
    obtain ⟨other, value⟩ := call
    obtain ⟨data, hd, -, hr⟩ := run_addAll_cons_eq_ok_iff.1 h
    obtain ⟨taken, ht, hheld⟩ := ih hr
    rw [attributes_insert, Attributes.dataUnder_insert] at hheld
    by_cases hn : other = name
    · subst hn
      rw [if_pos rfl] at hheld
      refine ⟨data :: taken, ?_, hheld⟩
      rw [addedUnder_cons_self, List.mapM_cons, hd, ht]
      rfl
    · rw [if_neg (Ne.symm hn)] at hheld
      exact ⟨taken, by rw [addedUnder_cons_of_ne hn]; exact ht, hheld⟩

/-- **An attribute shows all that was added under its name**: the texts of what the host gave for
the values, in the order of the additions, and nothing if there were none.  When something among
them has no text, rendering stops at the first node that has none.  Additions that agree for every
name lead to the same rendering, in whatever order names take turns. -/
theorem attribute_shows_all_added {host : Host} {definition : Definition} {group : Group}
    {calls : List (String × Value)} {after : Template}
    (h : (addAll host calls).run ⟨definition, group, ∅⟩ = .ok () after) :
    (∀ name, ∃ taken, (addedUnder name calls).mapM host.data = .ok taken ∧
      ∀ embed, Rendering.expression embed after.attributes (.attribute name) =
        match taken.mapM Value.render with
        | .ok texts => Outcome.text (String.join texts)
        | .error node => Outcome.stop (.unexpectedNode node)) ∧
    ∀ other after', (addAll host other).run ⟨definition, group, ∅⟩ = .ok () after' →
      (∀ name, addedUnder name other = addedUnder name calls) →
      ∀ settings, after'.render settings = after.render settings := by
  constructor
  · intro name
    obtain ⟨taken, ht, hheld⟩ := exists_data_of_addAll h name
    refine ⟨taken, ht, fun embed => ?_⟩
    have hr : (after.attributes.dataUnder name).render =
        (taken.mapM Value.render).map fun texts => String.join texts := by
      rw [hheld, Attributes.dataUnder_empty, Value.render_foldl_accumulate]
      show (taken.mapM Value.render).map (fun texts => "" ++ String.join texts) = _
      simp only [String.empty_append]
    show Rendering.showValue after.attributes name [] = _
    unfold Attributes.dataUnder at hr
    rw [Rendering.showValue, Value.navigate, hr]
    cases taken.mapM Value.render <;> rfl
  · intro other after' h' hsame settings
    obtain ⟨hdef, hgroup⟩ := definition_and_group_of_addAll h
    obtain ⟨hdef', hgroup'⟩ := definition_and_group_of_addAll h'
    have hdata : ∀ name, after'.attributes.dataUnder name = after.attributes.dataUnder name := by
      intro name
      obtain ⟨taken, ht, hheld⟩ := exists_data_of_addAll h name
      obtain ⟨taken', ht', hheld'⟩ := exists_data_of_addAll h' name
      rw [hsame name, ht] at ht'
      obtain rfl := Except.ok.inj ht'
      rw [hheld, hheld']
    unfold render Rendering.render
    rw [hdef, hgroup, hdef', hgroup']
    exact Rendering.expressions_congr _ fun e _ name _ => hdata name

/-- Null, a text, a list, a map and a copied context under one name, and another name before,
between or after them. -/
theorem attribute_shows_all_added_of_mixed :
    let definition : Definition := ⟨"<y><x>", [.attribute "y", .attribute "x"], none⟩
    let template : Template := ⟨definition, Group.empty, ∅⟩
    let calls : List (String × Value) := [("x", .null), ("x", .text "a"), ("y", .bool true),
      ("x", .list [.text "b", .null]), ("x", .map [(.text "k", .text "v")]), ("y", .null),
      ("x", .context (.text "c"))]
    let other : List (String × Value) := [("y", .bool true), ("y", .null), ("x", .null),
      ("x", .text "a"), ("x", .list [.text "b", .null]), ("x", .map [(.text "k", .text "v")]),
      ("x", .context (.text "c"))]
    ∃ after after', (addAll .standard calls).run template = .ok () after ∧
      (addAll .standard other).run template = .ok () after' ∧
      (∀ embed, Rendering.expression embed after.attributes (.attribute "x") =
        Outcome.text "ab[object]c") ∧
      ∀ settings, after'.render settings = after.render settings := by
  intro definition template calls other
  obtain ⟨after, h⟩ : ∃ after, (addAll .standard calls).run template = .ok () after := ⟨_, rfl⟩
  obtain ⟨after', h'⟩ : ∃ after', (addAll .standard other).run template = .ok () after' := ⟨_, rfl⟩
  obtain ⟨hshown, hrender⟩ := attribute_shows_all_added h
  obtain ⟨taken, ht, hx⟩ := hshown "x"
  obtain rfl : taken = [.null, .text "a", .list [.text "b", .null],
      .map [(.text "k", .text "v")], .text "c"] := (Except.ok.inj ht).symm
  have hsame : ∀ name, addedUnder name other = addedUnder name calls := by
    intro name
    by_cases hn : "x" = name
    · subst hn
      rfl
    · by_cases hy : "y" = name
      · subst hy
        rfl
      · simp [addedUnder, calls, other, hn, hy]
  exact ⟨after, after', h, h', hx, hrender other after' h' hsame⟩

end Template

end TextTemplate
