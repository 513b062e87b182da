import TextTemplate.Proofs.Families

/-!
# Templates as values

A template that is given to another one is kept there as the map of its attributes, as they are at
that moment, if the host keeps data as they stand.  What it shows as `<x.p>` then, the other one
shows as `<n.x.p>`, where `n` is the name it was given under, and goes on to show so, whatever is
added to any template later on, as long as nothing else is added to the other one under that name.

The other one can be given on in the same way, so templates are nested in one another to any depth
(`Family.Exposes`), and each of them shows what the innermost one showed
(`Family.given_templates_show_as_they_were`).

Neither condition can be left out (`Family.given_templates_need_not_show_as_they_were`): a template
that is given to itself can be added to under that name, and a map that a context brought in need
not have texts for keys before the template is given.
-/

namespace TextTemplate

/-- The expression that shows what a path leads to in an attribute: `<name>` or `<name.a.b>`. -/
def Expression.along (name : String) (path : List String) : Expression :=
  if path.isEmpty then .attribute name else .path name path

/-- A path that is made of two leads to what the second one leads to from where the first one
ends. -/
theorem Value.navigate_append (v : Value) (path rest : List String) :
    v.navigate (path ++ rest) = (v.navigate path).navigate rest := by
  induction path generalizing v with
  | nil => rw [List.nil_append, navigate_nil]
  | cons segment path ih =>
    cases v with
    | map entries => rw [List.cons_append, navigate, navigate, ih]
    | _ => cases rest <;> rfl

namespace Attributes

theorem navigate_toValue (attributes : Attributes) (name : String) (path : List String) :
    attributes.toValue.navigate (name :: path) = (attributes.dataUnder name).navigate path :=
  Value.navigate_ofAttributes attributes.entries name path

end Attributes

namespace Rendering

variable {attributes : Attributes} {name text : String} {path : List String}

/-- A path shows the text of what it leads to in the map of all attributes. -/
theorem showValue_of_render (h : (attributes.toValue.navigate (name :: path)).render = .ok text) :
    showValue attributes name path = Outcome.text text := by
  rw [Attributes.navigate_toValue, Attributes.dataUnder] at h
  rw [showValue, h]

theorem expression_along (embed : String → Outcome) (attributes : Attributes) (name : String)
    (path : List String) : expression embed attributes (.along name path) =
      showValue attributes name path := by
  cases path <;> rfl

end Rendering

namespace Family

variable {ι : Type}

/-- The call that gives a template to another one, or to itself. -/
def Call.giving (outer : ι) (name : String) (inner : ι) : Call ι :=
  ⟨outer, name, fun family => (family inner).toValue⟩

variable [DecidableEq ι]

/-- `Exposes host start calls outer path innermost`: after the calls, `outer` holds under the first
name of the path a template that was given to it, which then held under the second name one that had
been given to it, and so on to the last one, which was `innermost` then. -/
inductive Exposes (host : Host) (start : Family ι) :
    List (Call ι) → ι → List String → Template → Prop
  /-- A template as it is. -/
  | self (calls : List (Call ι)) (i : ι) :
      Exposes host start calls i [] (start.attemptAll host calls i)
  /-- A template is given to one that holds nothing under the name so far.  All contexts that were
  handed in until then held data. -/
  | given {calls : List (Call ι)} {outer middle : ι} {name : String} {path : List String}
      {innermost next : Template} :
      Exposes host start calls middle path innermost → Each host HandsInData start calls →
      (start.attemptAll host calls outer).attributes.dataUnder name = .null →
      ((Call.giving outer name middle).perform host (start.attemptAll host calls)).run
        (start.attemptAll host calls outer) = .ok () next →
      Exposes host start (calls ++ [Call.giving outer name middle]) outer (name :: path) innermost
  /-- A call adds to another template, or under another name. -/
  | kept {calls : List (Call ι)} {outer : ι} {name : String} {path : List String}
      {innermost : Template} (call : Call ι) :
      Exposes host start calls outer (name :: path) innermost →
      (call.target = outer → call.name ≠ name) →
      Exposes host start (calls ++ [call]) outer (name :: path) innermost

variable {host : Host} {start family : Family ι} {calls later : List (Call ι)} {call : Call ι}
  {outer inner : ι} {name : String} {path : List String} {innermost next : Template}

theorem attemptAll_concat : start.attemptAll host (calls ++ [call]) =
    (start.attemptAll host calls).attempt host call := attemptAll_append start calls [call]

theorem Each.of_append {R : Family ι → Call ι → Prop} (h : Each host R family (calls ++ later)) :
    Each host R family calls := by
  induction calls generalizing family with
  | nil => trivial
  | cons call rest ih => exact ⟨h.1, ih h.2⟩

/-- What is given to a template that holds nothing under the name is held there as the map of its
attributes. -/
theorem dataUnder_attempt_giving (hk : host.KeepsData) (hi : (family inner).attributes.AreData)
    (hn : (family outer).attributes.dataUnder name = .null)
    (ha : ((Call.giving outer name inner).perform host family).run (family outer) = .ok () next) :
    ((family.attempt host (Call.giving outer name inner)) outer).attributes.dataUnder name =
      (family inner).attributes.toValue := by
  have hadd : (Template.add host name (family inner).toValue).run (family outer) =
    .ok () next := ha
  obtain ⟨-, data, hd, rfl⟩ := Template.run_add_eq_ok_iff.1 hadd
  obtain rfl := hi.data_template hk hd
  rw [attempt_of_ok ha]
  show ((Function.update family outer _) outer).attributes.dataUnder name = _
  rw [Function.update_self, Template.attributes_insert, Attributes.dataUnder_insert, if_pos rfl, hn,
    Value.accumulate]

section

variable (hd : host.DumpsData) (hk : host.KeepsData) (hs : start.AreData)

include hd hs

/-- Until contexts bring in something else, the innermost template holds data. -/
theorem Exposes.areData_of_each (h : Exposes host start calls outer path innermost)
    (hcalls : Each host HandsInData start calls) : innermost.attributes.AreData := by
  induction h with
  | self calls i => exact hs.attemptAll hd hcalls i
  | given _ hgiven _ _ ih => exact ih hgiven
  | kept _ _ _ ih => exact ih hcalls.of_append

/-- A template that was given held data. -/
theorem Exposes.areData (h : Exposes host start calls outer (name :: path) innermost) :
    innermost.attributes.AreData := by
  generalize hp : name :: path = full at h
  induction h with
  | self => cases hp
  | given h hgiven => exact h.areData_of_each hd hs hgiven
  | kept _ _ _ ih => exact ih hp

include hk

/-- **Along the path lies the map of the innermost template's attributes**, as they were. -/
theorem Exposes.navigate_toValue (h : Exposes host start calls outer path innermost) :
    (start.attemptAll host calls outer).attributes.toValue.navigate path =
      innermost.attributes.toValue := by
  induction h with
  | self calls i => rw [Value.navigate_nil]
  | @given calls _ middle _ _ _ _ _ hgiven hn ha ih =>
    have hm := hs.attemptAll hd hgiven middle
    rw [attemptAll_concat, Attributes.navigate_toValue, dataUnder_attempt_giving hk hm hn ha, ih]
  | kept call _ hc ih =>
    rw [attemptAll_concat, Attributes.navigate_toValue, dataUnder_attempt_of_ne hc,
      ← Attributes.navigate_toValue, ih]

/-- What the outermost template shows along the path is what the innermost one showed. -/
theorem Exposes.exists_text (h : Exposes host start calls outer (name :: path) innermost)
    (first : String) (rest : List String) : ∃ text, ∀ embed,
      Rendering.expression embed (start.attemptAll host calls outer).attributes
          (.path name (path ++ first :: rest)) = Outcome.text text ∧
        Rendering.expression embed innermost.attributes (.along first rest) =
          Outcome.text text := by
  have hp := (h.areData hd hs).isData_toValue.navigate (first :: rest)
  obtain ⟨text, ht⟩ := Value.exists_render_eq_ok hp.isTree
  refine ⟨text, fun embed => ⟨?_, ?_⟩⟩
  · refine Rendering.showValue_of_render ?_
    rw [← List.cons_append, Value.navigate_append, h.navigate_toValue hd hk hs, ht]
  · rw [Rendering.expression_along]
    exact Rendering.showValue_of_render ht

end

theorem Exposes.append (h : Exposes host start calls outer (name :: path) innermost)
    (hl : ∀ call ∈ later, call.target = outer → call.name ≠ name) :
    Exposes host start (calls ++ later) outer (name :: path) innermost := by
  induction later generalizing calls with
  | nil => rwa [List.append_nil]
  | cons call rest ih =>
    obtain ⟨hc, hr⟩ := List.forall_mem_cons.1 hl
    rw [List.append_cons]
    exact ih (h.kept call hc) hr

/-- **Templates that are given to others show there as they were.**  Let the host dump data and keep
data as they stand, and let contexts that were handed in have held data.  Let `outer` hold nothing
under a name, and let `inner` be added to it under that name.  Then the path `<name.x.p>` over
`outer` has the text that `<x.p>` had over `inner` at that moment, whatever calls follow, unless
they add to `outer` under the same name.  The same holds for templates that are given on, along the
path of the names under which they were given, however many. -/
theorem given_templates_show_as_they_were {host : Host} (hd : host.DumpsData)
    (hk : host.KeepsData) (definitions : ι → Definition) (groups : ι → Group) :
    let start : Family ι := fresh definitions groups
    (∀ (before later : List (Call ι)) (outer inner : ι) (name : String) (next : Template),
      let family := start.attemptAll host before
      Each host HandsInData start before →
      (family outer).attributes.dataUnder name = .null →
      ((Call.giving outer name inner).perform host family).run (family outer) = .ok () next →
      (∀ call ∈ later, call.target = outer → call.name ≠ name) →
      ∀ first rest, ∃ text, ∀ embed,
        Rendering.expression embed
            (start.attemptAll host (before ++ Call.giving outer name inner :: later)
              outer).attributes (.path name (first :: rest)) = Outcome.text text ∧
          Rendering.expression embed (family inner).attributes (.along first rest) =
            Outcome.text text) ∧
    ∀ (calls : List (Call ι)) (outer : ι) (name : String) (path : List String)
      (innermost : Template), Exposes host start calls outer (name :: path) innermost →
      ∀ first rest, ∃ text, ∀ embed,
        Rendering.expression embed (start.attemptAll host calls outer).attributes
            (.path name (path ++ first :: rest)) = Outcome.text text ∧
          Rendering.expression embed innermost.attributes (.along first rest) =
            Outcome.text text := by
  intro start
  have hs : start.AreData := areData_fresh definitions groups
  constructor
  · intro before later outer inner name next family hb hn ha hl first rest
    have h := ((Exposes.self before inner).given hb hn ha).append hl
    rw [← List.append_cons] at h
    exact h.exists_text hd hk hs first rest
  · intro calls outer name path innermost h first rest
    exact h.exists_text hd hk hs first rest

/-- A template is given to a second one, which is given to a third one; in between and afterwards
more is added to the first one and, under the same name, to the second one. -/
theorem given_templates_show_as_they_were_of_nested :
    let start : Family String := fresh (fun _ => ⟨"", [], none⟩) fun _ => Group.empty
    let add (target name text : String) : Call String := ⟨target, name, fun _ => .text text⟩
    let before := [add "first" "x" "Ter"]
    let onceGiven := before ++ Call.giving "second" "t" "first" :: [add "first" "x" "!"]
    let twiceGiven := onceGiven ++ [Call.giving "third" "u" "second"] ++ [add "second" "t" "?"]
    let first := start.attemptAll .standard before "first"
    Host.standard.DumpsData ∧ Host.standard.KeepsData ∧
      Each .standard HandsInData start before ∧
      (∃ next, ((Call.giving "second" "t" "first").perform .standard
        (start.attemptAll .standard before)).run (start.attemptAll .standard before "second") =
          .ok () next) ∧
      Exposes .standard start twiceGiven "third" ["u", "t"] first ∧
      ∀ embed,
        Rendering.expression embed (start.attemptAll .standard onceGiven "second").attributes
          (.path "t" ["x"]) = Outcome.text "Ter" ∧
        Rendering.expression embed (start.attemptAll .standard twiceGiven "third").attributes
          (.path "u" ["t", "x"]) = Outcome.text "Ter" ∧
        Rendering.expression embed (start.attemptAll .standard twiceGiven "first").attributes
          (.attribute "x") = Outcome.text "Ter!" := by
  intro start add before onceGiven twiceGiven first
  have hd := Host.dumpsData_standard
  have hk := Host.keepsData_standard
  obtain ⟨hone, hmany⟩ := given_templates_show_as_they_were hd hk
    (fun _ : String => ⟨"", [], none⟩) fun _ => Group.empty
  have hbefore : Each .standard HandsInData start before := ⟨nofun, trivial⟩
  have honce : Each .standard HandsInData start onceGiven := ⟨nofun, nofun, nofun, trivial⟩
  obtain ⟨next, ha⟩ : ∃ next, ((Call.giving "second" "t" "first").perform .standard
    (start.attemptAll .standard before)).run (start.attemptAll .standard before "second") =
      .ok () next := ⟨_, rfl⟩
  have hother : ∀ call ∈ [add "first" "x" "!"], call.target = "second" → call.name ≠ "t" := by
    simp [add]
  have hnested : Exposes .standard start twiceGiven "third" ["u", "t"] first := by
    have hsecond := ((Exposes.self before "first").given hbefore rfl ha).append hother
    rw [← List.append_cons] at hsecond
    exact (hsecond.given honce rfl rfl).kept _ (by simp [add])
  obtain ⟨text, hsecond⟩ := hone before _ "second" "first" "t" next hbefore rfl ha hother "x" []
  obtain ⟨text', hthird⟩ := hmany twiceGiven "third" "u" ["t"] first hnested "x" []
  refine ⟨hd, hk, hbefore, ⟨next, ha⟩, hnested, fun embed => ?_⟩
  obtain ⟨hs, hf⟩ := hsecond embed
  obtain ⟨ht, hf'⟩ := hthird embed
  cases hf
  cases hf'
  exact ⟨hs, ht, rfl⟩

/-- A template that is given to itself is not shown as it was once something else is added under
that name.  A template that holds a map which a context brought in, with a truth value for a key,
does not find it under a text; when it is given, the key becomes one. -/
theorem given_templates_need_not_show_as_they_were :
    let start : Family String := fresh (fun _ => ⟨"", [], none⟩) fun _ => Group.empty
    let before : List (Call String) := [⟨"t", "x", fun _ => .text "v"⟩]
    let toItself := before ++ [Call.giving "t" "n" "t"]
    let afterwards := toItself ++ [⟨"t", "n", fun _ => .int 1⟩]
    let broughtIn : List (Call String) :=
      [⟨"t", "x", fun _ => .context (.map [(.bool true, .text "v")])⟩]
    let toOther := broughtIn ++ [Call.giving "s" "n" "t"]
    Host.standard.DumpsData ∧ Host.standard.KeepsData ∧ ∀ embed,
      Rendering.expression embed (start.attemptAll .standard before "t").attributes
        (.along "x" []) = Outcome.text "v" ∧
      Rendering.expression embed (start.attemptAll .standard toItself "t").attributes
        (.path "n" ["x"]) = Outcome.text "v" ∧
      Rendering.expression embed (start.attemptAll .standard afterwards "t").attributes
        (.path "n" ["x"]) = Outcome.text "" ∧
      Rendering.expression embed (start.attemptAll .standard broughtIn "t").attributes
        (.along "x" ["true"]) = Outcome.text "" ∧
      Rendering.expression embed (start.attemptAll .standard toOther "s").attributes
        (.path "n" ["x", "true"]) = Outcome.text "v" :=
  ⟨Host.dumpsData_standard, Host.keepsData_standard, fun _ => ⟨rfl, rfl, rfl, rfl, rfl⟩⟩

end Family

end TextTemplate
