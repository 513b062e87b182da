import Mathlib
import TextTemplate.StaticGroup
import TextTemplate.Proofs.Except

/-!
# Static groups are lazy without showing it

A static group is compiled by the first use that needs its declaration.  To tell that apart from a
declaration that was there from the start, one has to look inside: all other uses are answered as
`Use.answerFrom` reads the answer off the declaration, whatever uses came before
(`StaticGroup.answer_of_ok`).  A text that does not compile fails each use that needs it in the same
way, and leaves the static group as it was.  That is `StaticGroup.laziness_is_unobservable`.

A use that needs the declaration compiles it also when it finds nothing there, so a look-up that
fails is seen afterwards (`StaticGroup.laziness_is_observable_inside`).
-/

namespace TextTemplate

namespace StaticGroup

/-- The member of the given name that a declaration has. -/
def memberOf (declaration : Group.StaticDeclaration) (name : String) : Except MemberError Member :=
  if (ownMembers.lookup name).isSome then .ok .own
  else if name.startsWith "_" then .error (.hidden name)
  else
    match declaration.group.get? name with
    | some t => .ok (.template t)
    | none => .error (.undeclared name)

/-- The answer to a use that does not look inside, read off a declaration. -/
def Use.answerFrom (declaration : Group.StaticDeclaration) : Use → Answer
  | .get name => .template (declaration.group.get? name)
  | .contains name => .truth (declaration.group.contains name)
  | .groupName => .name declaration.name
  | .isPublic => .truth declaration.isPublic
  | .wholeGroup => .group declaration.group
  | .member name => .member (memberOf declaration name)
  | .asValue => .refused ⟨"StaticGroup", none⟩

/-- The compile error that an answer reports. -/
def Answer.compileError? : Answer → Option CompileError
  | .failed e => some e
  | .member (.error (.compile e)) => some e
  | _ => none

/-- The static group after uses, one after the other. -/
def afterAll (internal : List String) (s : StaticGroup) (uses : List Use) : StaticGroup :=
  uses.foldl (after internal) s

variable {internal : List String} {s : StaticGroup} {use : Use} {uses : List Use}
  {declaration : Group.StaticDeclaration} {e : CompileError} {name : String}

/-! ### One use -/

theorem forced_of_ok (h : s.declaration = .ok declaration) :
    s.forced = { s with declaration? := some declaration } := by
  rw [forced, h]

theorem forced_of_error (h : s.declaration = .error e) : s.forced = s := by
  rw [forced, h]

theorem declaration_of_some (h : s.declaration? = some declaration) :
    s.declaration = .ok declaration := by
  rw [StaticGroup.declaration, h]

/-- A use does not change what the declaration is. -/
theorem declaration_after (s : StaticGroup) (use : Use) :
    (s.after internal use).declaration = s.declaration := by
  unfold after
  split
  · cases h : s.declaration with
    | ok declaration => rw [forced_of_ok h]; rfl
    | error e => rw [forced_of_error h, h]
  · rfl

theorem source_after (s : StaticGroup) (use : Use) :
    (s.after internal use).source = s.source := by
  unfold after forced
  split
  · split <;> rfl
  · rfl

/-- A compiled static group is not changed by its uses. -/
theorem after_of_some (h : s.declaration? = some declaration) (use : Use) :
    s.after internal use = s := by
  have hf : s.forced = s := by rw [forced_of_ok (declaration_of_some h), ← h]
  rw [after, hf, ite_self]

/-- Neither is one whose text does not compile. -/
theorem after_of_error (h : s.declaration = .error e) (use : Use) :
    s.after internal use = s := by
  rw [after, forced_of_error h, ite_self]

/-- While the text compiles, a member is found in the declaration. -/
theorem member_of_ok (h : s.declaration = .ok declaration) (hi : name ≠ initializedMember) :
    s.member name = memberOf declaration name := by
  cases hown : ownMembers.lookup name with
  | some needed => cases needed <;> simp [member, memberOf, needsDeclaration, h, hown, hi]
  | none =>
    cases hidden : name.startsWith "_" with
    | true => simp [member, memberOf, needsDeclaration, hown, hidden, hi]
    | false =>
      cases hget : declaration.group.get? name <;>
        simp [member, memberOf, needsDeclaration, h, hown, hidden, hget]

/-- While the text compiles, a use is answered off the declaration. -/
theorem answer_of_ok (h : s.declaration = .ok declaration)
    (hu : use.looksInside internal = false) :
    s.answer internal use = use.answerFrom declaration := by
  cases use with
  | member name =>
    obtain ⟨hn, hi⟩ : name ∉ internal ∧ name ≠ initializedMember := by
      simpa [Use.looksInside] using hu
    rw [answer, access, if_neg hn, member_of_ok h hi]
    rfl
  | asValue => rfl
  | _ => simp only [answer, read, h]; rfl

/-- A text that does not compile fails each use that needs it. -/
theorem compileError?_of_error (h : s.declaration = .error e)
    (hn : use.needsDeclaration internal = true) :
    (s.answer internal use).compileError? = some e := by
  cases use with
  | member name =>
    obtain ⟨hi, hn⟩ : name ∉ internal ∧ needsDeclaration name = true := by
      simpa [Use.needsDeclaration] using hn
    rw [answer, access, if_neg hi, member, if_pos hn, h]
    rfl
  | asValue => cases hn
  | _ => simp only [answer, read, h, Answer.compileError?]

/-- While the text compiles, no use is failed by it. -/
theorem compileError?_of_ok (h : s.declaration = .ok declaration) (use : Use) :
    (s.answer internal use).compileError? = none := by
  cases use with
  | member name =>
    rw [answer, access]
    split
    · rfl
    · unfold member
      rw [h]
      split
      · dsimp only
        split
        · rfl
        · split <;> rfl
      · split
        · rfl
        · split <;> rfl
  | asValue => rfl
  | _ => simp only [answer, read, h, Answer.compileError?]

theorem isInitialized_after (h : s.declaration = .ok declaration) (use : Use) :
    (s.after internal use).isInitialized = (s.isInitialized || use.needsDeclaration internal) := by
  cases hn : use.needsDeclaration internal with
  | true => simp [after, hn, forced_of_ok h, isInitialized]
  | false => simp [after, hn]

/-! ### Uses one after the other -/

/-- What no use changes is not changed by any number of uses. -/
theorem afterAll_invariant {α : Type} {f : StaticGroup → α}
    (h : ∀ s use, f (after internal s use) = f s) (s : StaticGroup) (uses : List Use) :
    f (s.afterAll internal uses) = f s := by
  induction uses generalizing s with
  | nil => rfl
  | cons use rest ih => exact (ih (s.after internal use)).trans (h s use)

theorem declaration_afterAll (s : StaticGroup) (uses : List Use) :
    (s.afterAll internal uses).declaration = s.declaration :=
  afterAll_invariant declaration_after s uses

theorem source_afterAll (s : StaticGroup) (uses : List Use) :
    (s.afterAll internal uses).source = s.source :=
  afterAll_invariant source_after s uses

theorem afterAll_eq_self (h : ∀ use, s.after internal use = s) (uses : List Use) :
    s.afterAll internal uses = s := by
  induction uses with
  | nil => rfl
  | cons use rest ih => rw [afterAll, List.foldl_cons, h]; exact ih

theorem afterAll_of_error (h : s.declaration = .error e) (uses : List Use) :
    s.afterAll internal uses = s :=
  afterAll_eq_self (after_of_error h) uses

/-- Any use that needs the declaration leaves it compiled. -/
theorem isInitialized_afterAll (h : s.declaration = .ok declaration) (uses : List Use) :
    (s.afterAll internal uses).isInitialized =
      (s.isInitialized || uses.any (Use.needsDeclaration internal)) := by
  induction uses generalizing s with
  | nil => rw [List.any_nil, Bool.or_false]; rfl
  | cons use rest ih =>
    have hafter : (s.after internal use).declaration = .ok declaration :=
      (declaration_after s use).trans h
    have hrest := ih hafter
    rw [isInitialized_after h, Bool.or_assoc] at hrest
    exact hrest

/-- The first use that needs the declaration and is not failed by it compiles it, and none before
it does. -/
theorem isInitialized_afterAll_iff (hs : s.declaration? = none) (uses : List Use) :
    (s.afterAll internal uses).isInitialized = true ↔ ∃ earlier use later,
      uses = earlier ++ use :: later ∧ use.needsDeclaration internal = true ∧
        ((s.afterAll internal earlier).answer internal use).compileError? = none := by
  have hfresh : s.isInitialized = false := by rw [isInitialized, hs]; rfl
  cases h : s.declaration with
  | ok declaration =>
    have hanswered (earlier : List Use) (use : Use) :
        ((s.afterAll internal earlier).answer internal use).compileError? = none :=
      compileError?_of_ok ((declaration_afterAll s earlier).trans h) use
    rw [isInitialized_afterAll h, hfresh, Bool.false_or, List.any_eq_true]
    constructor
    · rintro ⟨use, hmem, hn⟩
      obtain ⟨earlier, later, huses⟩ := List.append_of_mem hmem
      exact ⟨earlier, use, later, huses, hn, hanswered earlier use⟩
    · rintro ⟨earlier, use, later, rfl, hn, -⟩
      exact ⟨use, by simp, hn⟩
  | error e =>
    rw [afterAll_of_error h, hfresh]
    refine iff_of_false Bool.false_ne_true ?_
    rintro ⟨earlier, use, later, -, hn, hnone⟩
    rw [afterAll_of_error h, compileError?_of_error h hn] at hnone
    cases hnone

/-- What a compiled static group holds is what its text declares. -/
theorem afterAll_of_isInitialized (hi : (s.afterAll internal uses).isInitialized = true) :
    ∃ declaration, s.declaration = .ok declaration ∧
      s.afterAll internal uses = ⟨s.source, some declaration⟩ := by
  obtain ⟨declaration, h⟩ := Option.isSome_iff_exists.1 hi
  have hsource : (s.afterAll internal uses).source = s.source := source_afterAll s uses
  refine ⟨declaration, ?_, ?_⟩
  · rw [← declaration_afterAll s uses, declaration_of_some h]
  · rw [← hsource, ← h]

/-- **No answer tells when a static group is compiled**, unless one looks inside.  Let a static
group have any members for its own use, and let any uses be made of it while it has not been
compiled.

* When its text compiles, each further use that does not look inside is answered as by the static
  group that is compiled at once, which reads its answers off the declaration.
* When it does not, the static group stays as it was, and each use that needs the declaration, now
  and later, reports the one error of the text.
* The static group has been compiled just when some use needed the declaration and did not report
  that error, whether it found what it looked for or not.
* From then on it is the static group that is compiled at once, whatever its further uses.
* It is refused as the value of an attribute, by every template that accepts the name and in every
  host, which changes neither the template nor the static group. -/
theorem laziness_is_unobservable (internal : List String) (source : String) (uses : List Use) :
    let s := (ofSource source).afterAll internal uses
    (∀ eager, compile source = .ok eager →
      (∀ use : Use, use.looksInside internal = false →
        s.answer internal use = eager.answer internal use) ∧
      ∃ declaration, compileStatic source = .ok declaration ∧
        ∀ use : Use, use.looksInside internal = false →
          eager.answer internal use = use.answerFrom declaration) ∧
    (∀ e, compile source = .error e → s = ofSource source ∧
      ∀ use : Use, use.needsDeclaration internal = true →
        (s.answer internal use).compileError? = some e) ∧
    (s.isInitialized = true ↔ ∃ earlier use later, uses = earlier ++ use :: later ∧
      use.needsDeclaration internal = true ∧
        (((ofSource source).afterAll internal earlier).answer internal use).compileError? = none) ∧
    (s.isInitialized = true →
      compile source = .ok s ∧ ∀ more, s.afterAll internal more = s) ∧
    s.answer internal .asValue = .refused ⟨"StaticGroup", none⟩ ∧
    s.after internal .asValue = s ∧
    ∀ (host : Host) (template : Template) (name : String),
      template.definition.accepts name = true →
      (Template.add host name .staticGroup).run template =
        .error (.value (.noData ⟨"StaticGroup", none⟩)) template := by
  intro s
  refine ⟨fun eager heager => ?_, fun e he => ?_, isInitialized_afterAll_iff rfl uses,
    fun hi => ?_, rfl, rfl, fun host template name hname => ?_⟩
  · obtain ⟨declaration, h, rfl⟩ :
        ∃ declaration, (ofSource source).declaration = .ok declaration ∧ _ = eager :=
      Except.map_eq_ok_iff.1 heager
    have heager (use : Use) (hu : use.looksInside internal = false) :
        (⟨source, some declaration⟩ : StaticGroup).answer internal use =
          use.answerFrom declaration := answer_of_ok rfl hu
    have hs : s.declaration = .ok declaration :=
      (declaration_afterAll (ofSource source) uses).trans h
    exact ⟨fun use hu => (answer_of_ok hs hu).trans (heager use hu).symm, declaration, h, heager⟩
  · have h : (ofSource source).declaration = .error e := Except.map_eq_error_iff.1 he
    have hs : s = ofSource source := afterAll_of_error h uses
    exact ⟨hs, fun use => by rw [hs]; exact compileError?_of_error h⟩
  · obtain ⟨declaration, h, hs⟩ := afterAll_of_isInitialized hi
    have hs : s = ⟨source, some declaration⟩ := hs
    rw [hs]
    exact ⟨Except.map_eq_ok_iff.2 ⟨declaration, h, rfl⟩, afterAll_eq_self (after_of_some rfl)⟩
  · exact Template.run_add_eq_value_iff.2 ⟨hname, rfl, rfl⟩

/-- One declaration is refused as a value, looked at inside, and then compiled by a look for `b`,
which it has not; one that breaks off stays as it is. -/
theorem laziness_is_unobservable_of_lookups :
    let internal := ["_group"]
    let source := "static ref g \x7b a() ::= \"x\" \x7d"
    let a : Definition := ⟨"x", [.literal "x"], some .empty⟩
    let eager : StaticGroup := ⟨source, some ⟨"g", false, [("a", a)]⟩⟩
    let lazy := (ofSource source).afterAll internal [.asValue, .member "_group", .contains "b"]
    let broken := (ofSource "static ref").afterAll internal [.groupName, .get "a"]
    let e : CompileError :=
      ⟨⟨.unexpectedEnd .identifier, ⟨7, 10⟩⟩, Text.Source.ofString "static ref"⟩
    (compile source = .ok eager ∧
      (Use.member "b").looksInside internal = false ∧
      lazy.answer internal (.member "b") = .member (.error (.undeclared "b")) ∧
      lazy.isInitialized = true ∧ lazy = eager ∧ ∀ more, lazy.afterAll internal more = lazy) ∧
    compile "static ref" = .error e ∧ broken = ofSource "static ref" ∧
      (broken.answer internal .isPublic).compileError? = some e ∧
      (Template.add .standard "s" .staticGroup).run ⟨⟨"", [], none⟩, .empty, ∅⟩ =
        .error (.value (.noData ⟨"StaticGroup", none⟩)) ⟨⟨"", [], none⟩, .empty, ∅⟩ := by
  intro internal source a eager lazy broken e
  have hc : compile source = .ok eager := by cbv
  have hb : compile "static ref" = .error e := by unfold e; cbv
  obtain ⟨heager, -, hinit, hstay, -⟩ :=
    laziness_is_unobservable internal source [.asValue, .member "_group", .contains "b"]
  obtain ⟨-, hfail, -, -, -, -, hvalue⟩ :=
    laziness_is_unobservable internal "static ref" [.groupName, .get "a"]
  have hbefore :=
    ((laziness_is_unobservable internal source [.asValue, .member "_group"]).1 eager hc).1
  have hanswered : ((ofSource source).afterAll internal [.asValue, .member "_group"]).answer
      internal (.contains "b") = .truth false := hbefore (.contains "b") rfl
  have hi : lazy.isInitialized = true :=
    hinit.2 ⟨[.asValue, .member "_group"], .contains "b", [], rfl, rfl,
      congrArg Answer.compileError? hanswered⟩
  have hlazy : lazy = eager := Except.ok.inj ((hstay hi).1.symm.trans hc)
  have hlook : (Use.member "b").looksInside internal = false := by decide
  have hmember : lazy.answer internal (.member "b") = .member (.error (.undeclared "b")) := by
    rw [(heager eager hc).1 _ hlook]
    cbv
  exact ⟨⟨hc, hlook, hmember, hi, hlazy, (hstay hi).2⟩, hb, (hfail e hb).1,
    (hfail e hb).2 .isPublic rfl, hvalue _ _ "s" rfl⟩

/-- A look-up that finds nothing leaves the static group compiled, and a member for its own use
shows whether it is. -/
theorem laziness_is_observable_inside :
    let s := ofSource "static ref g \x7b a() ::= \"x\" \x7d"
    let a : Definition := ⟨"x", [.literal "x"], some .empty⟩
    let eager : StaticGroup := ⟨s.source, some ⟨"g", false, [("a", a)]⟩⟩
    s.answer ["_group"] (.member "nope") = .member (.error (.undeclared "nope")) ∧
      (s.afterAll ["_group"] [.member "nope"]).isInitialized = true ∧
      compile s.source = .ok eager ∧
      s.answer ["_group"] (.member "_group") = .member (.ok (.inside none)) ∧
      eager.answer ["_group"] (.member "_group") =
        .member (.ok (.inside (some ⟨"g", false, [("a", a)]⟩))) := by
  intro s a eager
  have h : s.declaration = .ok ⟨"g", false, [("a", a)]⟩ := by cbv
  refine ⟨?_, ?_, by cbv, rfl, rfl⟩
  · rw [answer_of_ok h (by decide)]
    cbv
  · rw [isInitialized_afterAll h]
    cbv

end StaticGroup

end TextTemplate
