import Mathlib
import TextTemplate.Proofs.StaticGroups
import TextTemplate.Proofs.Group.Names

/-!
# Templates as members

The templates of a static group are also its members, as long as their names are free: the members
that every static group has come first, and no template is looked for under a name that starts with
a low line.  Such names are kept for what a static group has for its own use (`access`).

Under any other name the member is the template that the group gives out (`access_eq`), and the
names of templates are the identifiers that are no reserved words
(`accessors_give_out_the_declared_templates`).
-/

namespace TextTemplate

namespace Group

variable {group : Group} {name : String}

theorem get?_of_mem_names (h : name ∈ group.names) : ∃ definition,
    group.definitions.lookup name = some definition ∧
      group.get? name = some ⟨definition, group, ∅⟩ := by
  obtain ⟨definition, hd⟩ : ∃ definition, group.definitions.lookup name = some definition := by
    rw [← Option.ne_none_iff_exists', Ne, Entries.lookup_eq_none_iff, not_not]
    exact h
  exact ⟨definition, hd, by rw [get?, hd]; rfl⟩

theorem get?_of_not_mem_names (h : name ∉ group.names) : group.get? name = none := by
  rw [get?, Entries.lookup_eq_none_iff.2 h]
  rfl

end Group

namespace StaticGroup

variable {internal : List String} {s : StaticGroup} {declaration : Group.StaticDeclaration}
  {name : String}

/-- Behind the members of its own, a static group has its templates, but none under a name that
starts with a low line. -/
theorem access_eq (h : s.declaration = .ok declaration) (hown : ownMembers.lookup name = none)
    (hinternal : name ∉ internal) : s.access internal name =
      if name.startsWith "_" then .error (.hidden name)
      else
        match declaration.group.get? name with
        | some t => .ok (.template t)
        | none => .error (.undeclared name) := by
  have hnone : ¬(ownMembers.lookup name).isSome = true := by simp [hown]
  have hother : name ≠ initializedMember := by
    rintro rfl
    cases hown
  calc s.access internal name
      = s.member name := if_neg hinternal
    _ = memberOf declaration name := member_of_ok h hother
    _ = _ := if_neg hnone

/-- No member that every static group has is hidden. -/
theorem lookup_ownMembers_of_startsWith (h : name.startsWith "_" = true) :
    ownMembers.lookup name = none := by
  have hshown : ∀ own ∈ Entries.keys ownMembers, own.startsWith "_" = false := by
    simp [ownMembers, initializedMember]
  refine Entries.lookup_eq_none_iff.2 fun hm => ?_
  exact Bool.false_ne_true ((hshown name hm).symm.trans h)

/-- **A static group has its templates as members.**  Let a static group have further members for
its own use, all of them under names that start with a low line, and let its text compile, now or
earlier.

* The names of its templates are identifiers and no reserved words.  Each of them is given out
  with its definition, over the group, and without attributes.
* The member of this name is the same template, unless the name starts with a low line or is that of
  a member that every static group has.  Under a name that starts with a low line there is an error
  in its place, or a member for its own use.
* Under any other name no template is given out, and there is no member unless it is one of its own.

Every identifier that is no reserved word is the name of a template in some static group. -/
theorem accessors_give_out_the_declared_templates (internal : List String)
    (hinternal : ∀ name ∈ internal, name.startsWith "_" = true) :
    (∀ source declaration uses, compileStatic source = .ok declaration →
      let s := (ofSource source).afterAll internal uses
      let group := declaration.group
      (∀ name ∈ group.names, Group.IsName name ∧ ∃ definition,
        group.definitions.lookup name = some definition ∧
        s.answer internal (.get name) = .template (some ⟨definition, group, ∅⟩) ∧
        (name.startsWith "_" = false → ownMembers.lookup name = none →
          s.access internal name = .ok (.template ⟨definition, group, ∅⟩)) ∧
        (name.startsWith "_" = true → name ∉ internal →
          s.access internal name = .error (.hidden name))) ∧
      ∀ name, name ∉ group.names → s.answer internal (.get name) = .template none ∧
        (ownMembers.lookup name = none → name ∉ internal → s.access internal name =
          .error (if name.startsWith "_" then .hidden name else .undeclared name))) ∧
    ∀ name, Group.IsName name ↔
      ∃ source declaration, compileStatic source = .ok declaration ∧
        name ∈ declaration.group.names := by
  refine ⟨fun source declaration uses hcompile => ?_, fun name => ⟨?_, ?_⟩⟩
  · intro s group
    have hs : s.declaration = .ok declaration :=
      (declaration_afterAll (ofSource source) uses).trans hcompile
    have hget (name : String) : s.answer internal (.get name) = .template (group.get? name) :=
      answer_of_ok hs rfl
    refine ⟨fun name hname => ?_, fun name hname => ?_⟩
    · obtain ⟨definition, hlookup, hgiven⟩ := Group.get?_of_mem_names hname
      refine ⟨Group.isName_of_compileStatic hcompile hname, definition, hlookup, ?_,
        fun hshown hown => ?_, fun hhidden hnot => ?_⟩
      · rw [hget, hgiven]
      · have hnot : name ∉ internal := fun hm => by simp [hinternal name hm] at hshown
        rw [access_eq hs hown hnot, hshown, if_neg Bool.false_ne_true, hgiven]
      · rw [access_eq hs (lookup_ownMembers_of_startsWith hhidden) hnot, if_pos hhidden]
    · have hgiven := Group.get?_of_not_mem_names hname
      refine ⟨by rw [hget, hgiven], fun hown hnot => ?_⟩
      rw [access_eq hs hown hnot, hgiven]
      cases name.startsWith "_" <;> rfl
  · exact Group.exists_compileStatic_of_isName
  · rintro ⟨source, declaration, hcompile, hname⟩
    exact Group.isName_of_compileStatic hcompile hname

theorem accessors_give_out_the_declared_templates_of_two_names :
    let source := "static ref g \x7b a() ::= \"x\" _b() ::= \"y\" \x7d"
    let a : Definition := ⟨"x", [.literal "x"], some .empty⟩
    let b : Definition := ⟨"y", [.literal "y"], some .empty⟩
    let s := (ofSource source).afterAll ["_group"] [.contains "c"]
    (∀ name ∈ ["_group"], name.startsWith "_" = true) ∧
      compileStatic source = .ok ⟨"g", false, [("a", a), ("_b", b)]⟩ ∧
      s.access ["_group"] "a" = .ok (.template ⟨a, ⟨[("a", a), ("_b", b)]⟩, ∅⟩) ∧
      s.access ["_group"] "_b" = .error (.hidden "_b") ∧
      s.access ["_group"] "c" = .error (.undeclared "c") := by
  intro source a b s
  have hinternal : ∀ name ∈ ["_group"], name.startsWith "_" = true := by simp
  have hcompile : compileStatic source = .ok ⟨"g", false, [("a", a), ("_b", b)]⟩ := by cbv
  obtain ⟨hdeclared, hother⟩ := (accessors_give_out_the_declared_templates _ hinternal).1 source _
    [.contains "c"] hcompile
  obtain ⟨-, _, ha, -, hshown, -⟩ := hdeclared "a" (by decide)
  obtain ⟨-, _, -, -, -, hhidden⟩ := hdeclared "_b" (by decide)
  obtain rfl := Option.some.inj ha
  refine ⟨hinternal, hcompile, hshown (by simp) (by decide), hhidden (by simp) (by decide), ?_⟩
  simpa using (hother "c" (by decide)).2 (by decide) (by decide)

/-- Neither a template under a name that starts with a low line is a member, nor one under the name
of a member that every static group has. -/
theorem declared_templates_need_not_be_members :
    let s := ofSource "static ref g \x7b _a() ::= \"x\" name() ::= \"y\" \x7d"
    let a : Definition := ⟨"x", [.literal "x"], some .empty⟩
    let b : Definition := ⟨"y", [.literal "y"], some .empty⟩
    let group : Group := ⟨[("_a", a), ("name", b)]⟩
    s.answer [] (.get "_a") = .template (some ⟨a, group, ∅⟩) ∧
      s.member "_a" = .error (.hidden "_a") ∧
      s.answer [] (.get "name") = .template (some ⟨b, group, ∅⟩) ∧ s.member "name" = .ok .own := by
  intro s a b group
  have h : s.declaration = .ok ⟨"g", false, [("_a", a), ("name", b)]⟩ := by cbv
  rw [answer_of_ok h rfl, answer_of_ok h rfl, member_of_ok h (by decide),
    member_of_ok h (by decide)]
  refine ⟨rfl, ?_, rfl, rfl⟩
  simp [memberOf, ownMembers, initializedMember]

end StaticGroup

end TextTemplate
