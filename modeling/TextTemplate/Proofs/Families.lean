import Mathlib.Logic.Function.Basic
import TextTemplate.Proofs.Rendering.Accumulation

/-!
# Families of templates

Templates exist side by side, and each of them may be given to another one, or to itself, as a
value.  A call of `add` is addressed to one template of a family; what it gives may be made of all
templates as they are at that moment.  A call that fails leaves the family as it was.

As long as the host dumps data, and no context that is handed in holds anything else, all attributes
hold data (`Family.AreData.attemptAll`).  So a rendering never meets a node that it cannot show:
it leaves a text or stops at the limit on inclusions
(`Family.rendering_stops_at_the_limit_only`).  The integers that it writes are integers that were
taken over.

A context is taken over as it stands.  One that holds something else brings that into a template,
where it stops the rendering (`Family.rendering_stops_at_what_a_context_brings_in`).
-/

namespace TextTemplate

/-! ### The integers in a value -/

namespace Value

mutual

/-- The integers in a value. -/
def integers : Value → List Int
  | .int n => [n]
  | .list items | .tuple items | .set items => integersOfItems items
  | .map entries => integersOfEntries entries
  | .context held => integers held
  | _ => []

/-- The integers in the items of a list. -/
def integersOfItems : List Value → List Int
  | [] => []
  | item :: rest => integers item ++ integersOfItems rest

/-- The integers in the values of a map. -/
def integersOfEntries : List (Value × Value) → List Int
  | [] => []
  | (_, value) :: rest => integers value ++ integersOfEntries rest

end

theorem integersOfItems_append (items later : List Value) :
    integersOfItems (items ++ later) = integersOfItems items ++ integersOfItems later := by
  induction items with
  | nil => rfl
  | cons item rest ih => simp [integersOfItems, ih]

theorem integersOfItems_singleton (v : Value) : integersOfItems [v] = v.integers := by
  simp [integersOfItems]

/-- Nothing is accumulated but what was there and what is new. -/
theorem integers_accumulate (old new : Value) :
    (old.accumulate new).integers = old.integers ++ new.integers := by
  have hpair : integersOfItems [old, new] = old.integers ++ new.integers := by
    rw [← List.singleton_append, integersOfItems_append, integersOfItems_singleton,
      integersOfItems_singleton]
  cases old with
  | null => rfl
  | list items =>
    show integersOfItems (items ++ [new]) = integersOfItems items ++ new.integers
    rw [integersOfItems_append, integersOfItems_singleton]
  | _ => exact hpair

theorem integers_lookup (entries : List (Value × Value)) (key : Value) :
    ((entries.lookup key).getD .null).integers ⊆ integersOfEntries entries := by
  induction entries with
  | nil => exact List.Subset.refl _
  | cons entry rest ih =>
    obtain ⟨k, value⟩ := entry
    rw [List.lookup_cons, integersOfEntries]
    split
    · exact List.subset_append_left _ _
    · exact List.subset_append_of_subset_right _ ih

/-- Nothing is reached but what is there. -/
theorem integers_navigate (v : Value) (path : List String) :
    (v.navigate path).integers ⊆ v.integers := by
  induction path generalizing v with
  | nil => rw [navigate_nil]; exact List.Subset.refl _
  | cons segment path ih =>
    cases v with
    | map entries =>
      rw [navigate]
      exact List.Subset.trans (ih _) (integers_lookup entries _)
    | _ => exact List.nil_subset _

end Value

namespace Attributes

/-- All integers in the attributes have a property. -/
def AllIntegers (p : Int → Prop) (attributes : Attributes) : Prop :=
  ∀ name, ∀ n ∈ (attributes.dataUnder name).integers, p n

variable {attributes : Attributes} {p : Int → Prop} {data : Value}

theorem allIntegers_empty : AllIntegers p ∅ := fun _ _ hn => nomatch hn

theorem AllIntegers.insert (h : attributes.AllIntegers p) (name : String)
    (hd : ∀ n ∈ data.integers, p n) : (attributes.insert name data).AllIntegers p := by
  intro other n hn
  rw [dataUnder_insert] at hn
  split at hn
  · rw [Value.integers_accumulate] at hn
    rcases List.mem_append.1 hn with hn | hn
    · exact h name n hn
    · exact hd n hn
  · exact h other n hn

theorem AreData.isData_dataUnder (h : attributes.AreData) (name : String) :
    (attributes.dataUnder name).IsData := by
  unfold dataUnder
  cases hg : attributes.get? name with
  | none => exact .null
  | some v => exact h.isData_get hg

end Attributes

/-! ### Calls -/

/-- Templates that exist side by side. -/
abbrev Family (ι : Type) := ι → Template

namespace Family

/-- A call of `add`.  Its value may be made of the templates as they are at that moment. -/
structure Call (ι : Type) where
  target : ι
  name : String
  given : Family ι → Value

variable {ι : Type}

/-- Makes a call, which sees the whole family but changes its target only. -/
def Call.perform (host : Host) (call : Call ι) (family : Family ι) :
    EStateM Template.AddError Template Unit :=
  Template.add host call.name (call.given family)

/-- All attributes of all templates hold data. -/
def AreData (family : Family ι) : Prop := ∀ i, (family i).attributes.AreData

/-- The templates before any call. -/
def fresh (definitions : ι → Definition) (groups : ι → Group) : Family ι :=
  fun i => ⟨definitions i, groups i, ∅⟩

variable [DecidableEq ι]

/-- The family that a call leaves, whether it succeeds or fails. -/
def attempt (host : Host) (family : Family ι) (call : Call ι) : Family ι :=
  Function.update family call.target
    (Template.leftBy ((call.perform host family).run (family call.target)))

/-- The family that calls leave, whatever becomes of each. -/
def attemptAll (host : Host) (family : Family ι) (calls : List (Call ι)) : Family ι :=
  calls.foldl (attempt host) family

/-- Each call has a property in the family that it is made in. -/
def Each (host : Host) (R : Family ι → Call ι → Prop) : Family ι → List (Call ι) → Prop
  | _, [] => True
  | family, call :: rest => R family call ∧ Each host R (family.attempt host call) rest

/-- A context that a call hands in holds data. -/
def HandsInData (family : Family ι) (call : Call ι) : Prop := (call.given family).HoldsData

/-- What is taken over of the value of a call has a property. -/
def TakesOver (host : Host) (Q : Value → Prop) (family : Family ι) (call : Call ι) : Prop :=
  ∀ data, host.data (call.given family) = .ok data → Q data

variable {host : Host} {family : Family ι} {call : Call ι} {calls : List (Call ι)}
  {next : Template} {Q : Value → Prop}

/-! ### One call -/

theorem attempt_of_ok (h : (call.perform host family).run (family call.target) = .ok () next) :
    family.attempt host call = Function.update family call.target next := by
  rw [attempt, h, Template.leftBy]

theorem attempt_of_error {e : Template.AddError}
    (h : (call.perform host family).run (family call.target) = .error e next) :
    family.attempt host call = family := by
  rw [attempt, h, Template.leftBy, Template.eq_of_run_add_eq_error h, Function.update_eq_self]

/-- What insertions keep is kept by a call. -/
theorem forall_attempt {P : Attributes → Prop}
    (hinsert : ∀ attributes name data, P attributes → Q data → P (attributes.insert name data))
    (hf : ∀ i, P (family i).attributes) (hcall : TakesOver host Q family call) :
    ∀ i, P ((family.attempt host call) i).attributes := by
  intro i
  cases hr : (call.perform host family).run (family call.target) with
  | error e left =>
    rw [attempt_of_error hr]
    exact hf i
  | ok _ next =>
    obtain ⟨-, data, hd, rfl⟩ := Template.run_add_eq_ok_iff.1 hr
    rw [attempt_of_ok hr]
    by_cases hi : i = call.target
    · subst hi
      rw [Function.update_self]
      exact hinsert _ _ _ (hf _) (hcall data hd)
    · rw [Function.update_of_ne hi]
      exact hf i

omit [DecidableEq ι] in
theorem areData_fresh (definitions : ι → Definition) (groups : ι → Group) :
    (fresh definitions groups).AreData := fun _ => Attributes.areData_empty

omit [DecidableEq ι] in
/-- Where the host dumps data, data are all that is taken over. -/
theorem HandsInData.takesOver (hd : host.DumpsData) (h : HandsInData family call) :
    TakesOver host Value.IsData family call := fun _ => Host.isData_of_data hd h

/-- A call changes nothing of what is held under other names and by other templates. -/
theorem dataUnder_attempt_of_ne {i : ι} {name : String} (h : call.target = i → call.name ≠ name) :
    ((family.attempt host call) i).attributes.dataUnder name =
      (family i).attributes.dataUnder name := by
  cases hr : (call.perform host family).run (family call.target) with
  | error e left => rw [attempt_of_error hr]
  | ok _ next =>
    obtain ⟨-, data, -, rfl⟩ := Template.run_add_eq_ok_iff.1 hr
    rw [attempt_of_ok hr]
    by_cases hi : i = call.target
    · subst hi
      rw [Function.update_self, Template.attributes_insert, Attributes.dataUnder_insert,
        if_neg (Ne.symm (h rfl))]
    · rw [Function.update_of_ne hi]

/-! ### Runs of calls -/

/-- What insertions keep is kept by calls. -/
theorem forall_attemptAll {P : Attributes → Prop}
    (hinsert : ∀ attributes name data, P attributes → Q data → P (attributes.insert name data))
    (hf : ∀ i, P (family i).attributes) (hcalls : Each host (TakesOver host Q) family calls) :
    ∀ i, P ((family.attemptAll host calls) i).attributes := by
  induction calls generalizing family with
  | nil => exact hf
  | cons call rest ih => exact ih (forall_attempt hinsert hf hcalls.1) hcalls.2

theorem attemptAll_append (family : Family ι) (calls later : List (Call ι)) :
    family.attemptAll host (calls ++ later) =
      (family.attemptAll host calls).attemptAll host later := List.foldl_append

theorem Each.imp {R S : Family ι → Call ι → Prop} (h : ∀ family call, R family call → S family call)
    (hr : Each host R family calls) : Each host S family calls := by
  induction calls generalizing family with
  | nil => trivial
  | cons call rest ih => exact ⟨h _ _ hr.1, ih hr.2⟩

/-- **Whatever the calls, all attributes hold data**, if the host dumps data and contexts hold
nothing else. -/
theorem AreData.attemptAll (hf : family.AreData) (hd : host.DumpsData)
    (h : Each host HandsInData family calls) : (family.attemptAll host calls).AreData :=
  forall_attemptAll (fun _ name _ ha => ha.insert name) hf (h.imp fun _ _ => (·.takesOver hd))

/-- **Rendering stops at the limit only.**  Templates are added to in turns, with host values of any
kind, with one another as they are at that moment, or with contexts; calls may fail.  Let the host
dump data, and let the contexts that are handed in hold data, such as those that templates hold
along paths.  Then each of the templates leaves a text under a limit on inclusions, or stops because
that limit is exceeded.  All that a path leads to in its attributes is data, which has a text, and
the integers in it are among those that were taken over: if all of these can be written, so can
they. -/
theorem rendering_stops_at_the_limit_only {host : Host} (hd : host.DumpsData)
    (definitions : ι → Definition) (groups : ι → Group) {calls : List (Call ι)}
    (hcalls : Each host HandsInData (fresh definitions groups) calls) {writable : Int → Prop}
    (hwritable : Each host (TakesOver host fun data => ∀ n ∈ data.integers, writable n)
      (fresh definitions groups) calls) (i : ι) :
    let template := (fresh definitions groups).attemptAll host calls i
    (∀ (limit : Int) (warns : Bool),
      (∃ text, (template.render ⟨some limit, warns⟩).result = .ok text) ∨
        ∃ name, (template.render ⟨some limit, warns⟩).result =
          .error (.includeLimit name limit)) ∧
    ∀ name path,
      let shown := (template.attributes.dataUnder name).navigate path
      shown.IsData ∧ (∀ n ∈ shown.integers, writable n) ∧ ∃ text, shown.render = .ok text := by
  intro template
  have hdata : template.attributes.AreData :=
    (areData_fresh definitions groups).attemptAll hd hcalls i
  have hintegers : template.attributes.AllIntegers writable :=
    forall_attemptAll (fun _ name _ ha => ha.insert name)
      (fun _ => Attributes.allIntegers_empty) hwritable i
  constructor
  · intro limit warns
    have hs : Rendering.Tells template.group.definitions (Rendering.exhausted (some limit))
        (Rendering.budget (some limit) template.group.definitions)
        template.definition.expressions (template.render ⟨some limit, warns⟩).result :=
      Rendering.tells_render hdata.areTrees (some limit)
    generalize (template.render ⟨some limit, warns⟩).result = result at hs ⊢
    cases hs with
    | none text => exact .inl ⟨text, rfl⟩
    | first chain link => exact .inr ⟨link.name, rfl⟩
  · intro name path shown
    have hshown : shown.IsData := (hdata.isData_dataUnder name).navigate path
    exact ⟨hshown, fun n hn => hintegers name n (Value.integers_navigate _ path hn),
      Value.exists_render_eq_ok hshown.isTree⟩

/-- One call fails, one template is given to another one, and part of what the first one holds is
handed on as a context; the cycle of inclusions is cut by the limit. -/
theorem rendering_stops_at_the_limit_only_of_shared :
    let body : List Expression := [.path "t" ["x", "k"], .attribute "c", .inclusion "b" []]
    let group : Group := ⟨[("b", ⟨"<b()>", [.inclusion "b" []], none⟩)]⟩
    let start : Family String := fresh (fun _ => ⟨"<t.x.k><c><b()>", body, none⟩) fun _ => group
    let calls : List (Call String) :=
      [⟨"first", "x", fun _ => .map [(.text "k", .tuple [.int 1, .text "a"])]⟩,
        ⟨"first", "y", fun _ => .foreign "Opaque" 0⟩,
        ⟨"second", "t", fun family => (family "first").toValue⟩,
        ⟨"second", "c", fun family =>
          .context (((family "first").attributes.dataUnder "x").navigate ["k"])⟩]
    let writable (n : Int) : Prop := (Nat.toDigits 10 n.natAbs).length ≤ 4300
    let template := start.attemptAll .standard calls "second"
    Host.standard.DumpsData ∧ Each .standard HandsInData start calls ∧
      Each .standard (TakesOver .standard fun data => ∀ n ∈ data.integers, writable n) start calls ∧
      (template.attributes.dataUnder "t").navigate ["x", "k"] = .list [.int 1, .text "a"] ∧
      template.attributes.dataUnder "c" = .list [.int 1, .text "a"] ∧
      ((∃ text, (template.render ⟨some 3, false⟩).result = .ok text) ∨
        ∃ name, (template.render ⟨some 3, false⟩).result = .error (.includeLimit name 3)) := by
  intro body group start calls writable template
  have hone : writable 1 := by decide
  have hlist : Value.IsData (.list [.int 1, .text "a"]) :=
    .list (by simp [Value.IsData.int, Value.IsData.text])
  have hdata : Each .standard HandsInData start calls := by
    refine ⟨nofun, nofun, nofun, ?_, trivial⟩
    intro held h
    obtain rfl : .list [.int 1, .text "a"] = held := Value.context.inj h
    exact hlist
  have hwritable :
      Each .standard (TakesOver .standard fun data => ∀ n ∈ data.integers, writable n) start
        calls := by
    refine ⟨?_, nofun, ?_, ?_, trivial⟩
    · intro data h
      obtain rfl : .map [(.text "k", .list [.int 1, .text "a"])] = data := Except.ok.inj h
      simpa [Value.integers, Value.integersOfEntries, Value.integersOfItems] using hone
    · intro data h
      obtain rfl : .map [(.text "x", .map [(.text "k", .list [.int 1, .text "a"])])] = data :=
        Except.ok.inj h
      simpa [Value.integers, Value.integersOfEntries, Value.integersOfItems] using hone
    · intro data h
      obtain rfl : .list [.int 1, .text "a"] = data := Except.ok.inj h
      simpa [Value.integers, Value.integersOfItems] using hone
  exact ⟨Host.dumpsData_standard, hdata, hwritable, rfl, rfl,
    (rendering_stops_at_the_limit_only Host.dumpsData_standard _ _ hdata hwritable "second").1 3
      false⟩

/-- A context that holds a set is taken over, set and all, and rendering it fails. -/
theorem rendering_stops_at_what_a_context_brings_in :
    let definition : Definition := ⟨"<x>", [.attribute "x"], none⟩
    let start : Family Unit := fresh (fun _ => definition) fun _ => .empty
    let call : Call Unit := ⟨(), "x", fun _ => .context (.set [.int 1])⟩
    let template := start.attemptAll .standard [call] ()
    compileTemplate "<x>" = .ok definition ∧ Host.standard.DumpsData ∧
      (call.perform .standard start).run (start ()) = .ok () template ∧
      ∀ limit warns, (template.render ⟨some limit, warns⟩).result =
        .error (.unexpectedNode ⟨"set"⟩) := by
  intro definition start call template
  have hitems : Body.items 1 ['x'] = [⟨.name 'x' [], 1⟩] := by
    rw [Body.items, if_neg (by decide), if_pos (by decide)]
    simp [Body.items]
  have hscan : Body.scan "<x>".toList = .ok [.attribute "x"] := by
    show Body.scanFrom 0 ([] ++ '<' :: (['x'] ++ '>' :: [])) = .ok _
    exact Body.scanFrom_of_expression (by decide) (by decide)
      (congrArg (Body.readExpression 2) hitems) (Body.scanFrom_of_not_mem (by decide))
  refine ⟨?_, Host.dumpsData_standard, rfl, fun _ _ => rfl⟩
  rw [compileTemplate, hscan]

end Family

end TextTemplate
