import TextTemplate.Template
import TextTemplate.Proofs.Places.Tokens

/-!
# Places of compile errors

Declarations blame a token, or from an opening delimiter to the one that closes it; the end of the
text is blamed on the last token; and a fault in the body of a literal is blamed where the literal
spells it.  All of these are ranges of the text that are not empty, since tokens are placed one
behind the other and the characters of a literal keep their order (`Fault.within_relocate`).  So
compiling any text leaves a result or an error at a place of the text
(`compile_leaves_result_or_placed_error`); the empty text is no static declaration and has no such
place.
-/

namespace TextTemplate

/-- Moving a fault of a literal's value to the text keeps its range from being empty, since each
character is spelt behind the one before it. -/
theorem Fault.within_relocate {offsets : List Nat} {fault : Fault} {length upper : Nat}
    (ha : offsets.Pairwise (· < ·)) (hu : ∀ offset ∈ offsets, offset ≤ upper)
    (hl : offsets.length = length + 1) (hf : fault.extent.Within 0 length) :
    (fault.relocate offsets).extent.Within 0 upper := by
  have hlt := hf.start_lt_stop
  have hle := hf.stop_le
  have hstart : fault.extent.start < offsets.length := by omega
  have hstop : fault.extent.stop < offsets.length := by omega
  have hs : offsets.getD fault.extent.start 0 = offsets[fault.extent.start] :=
    (List.getElem_eq_getD 0).symm
  have ht : offsets.getD fault.extent.stop 0 = offsets[fault.extent.stop] :=
    (List.getElem_eq_getD 0).symm
  refine ⟨Nat.zero_le _, ?_, ?_⟩
  · simp only [relocate, hs, ht]
    exact List.pairwise_iff_getElem.1 ha _ _ hstart hstop hlt
  · simp only [relocate, ht]
    exact hu _ (List.getElem_mem hstop)

namespace Group

variable {length lower : Nat} {token : Token} {rest tokens : List Token} {last : Text.Extent}

/-! ### Declarations -/

theorem closer?_mem {opening closing : Token.Kind} {depth : Nat} {found : Token}
    (h : closer? opening closing depth tokens = some found) : found ∈ tokens := by
  induction tokens generalizing depth with
  | nil => cases h
  | cons token rest ih =>
    unfold closer? at h
    split at h
    · exact List.mem_cons_of_mem _ (ih h)
    · split at h
      · split at h
        · obtain rfl := Option.some.inj h
          exact List.mem_cons_self
        · exact List.mem_cons_of_mem _ (ih h)
      · exact List.mem_cons_of_mem _ (ih h)

/-- A token is blamed inside the text, also together with what it encloses. -/
theorem within_blamed (h : Token.ArePlaced length lower (token :: rest)) :
    (blamed token rest).Within 0 length := by
  have ht := h.1.extent.mono (Nat.zero_le _) (Nat.le_refl _)
  unfold blamed
  split
  · exact ht
  · split
    · exact ht
    · next found hc =>
      have hf := (h.2.placedIn found (closer?_mem hc)).extent
      exact ht.join (hf.mono (Nat.zero_le _) (Nat.le_refl _)) hf.lower_le

namespace Reading

theorem placesFaults_define {literal : Token} (hl : literal.PlacedIn lower length)
    (hk : literal.kind = .string) (parameters : List String) :
    PlacesFaults 0 length (fun _ => True) (define parameters literal) := by
  have hb := Body.placesFaults_scan literal.value.toList
  unfold define
  split
  · exact trivial
  · next fault hf =>
    rw [hf] at hb
    exact Fault.within_relocate hl.ascending hl.offset_le (hl.length_offsets hk) hb

theorem placesFaults_startDeclaration (reading : Reading)
    (h : Token.ArePlaced length lower (token :: rest)) :
    PlacesFaults 0 length (fun _ => True) (reading.startDeclaration token rest) := by
  unfold startDeclaration
  split
  · exact within_blamed h
  · split
    · exact within_blamed h
    · exact trivial

theorem placesFaults_step (reading : Reading) (h : Token.ArePlaced length lower (token :: rest)) :
    PlacesFaults 0 length (fun _ => True) (reading.step token rest) := by
  unfold step
  dsimp only
  split
  -- a declaration starts; a parameter is read; a body is read; the token is not what is asked for
  case h_1 | h_3 => exact placesFaults_startDeclaration reading h
  case h_6 =>
    split
    · exact within_blamed h
    · exact trivial
  case h_11 parameters hk => exact (placesFaults_define h.1 hk _).map fun _ _ => trivial
  case h_12 => exact within_blamed h
  all_goals exact trivial

/-- Reading the remaining tokens places its fault, which may be the token before them. -/
theorem placesFaults_run (reading : Reading) (h : Token.ArePlaced length lower tokens)
    (hl : reading.isFinished = false → last.Within 0 length) :
    PlacesFaults 0 length (fun _ => True) (reading.run last tokens) := by
  induction tokens generalizing reading last lower with
  | nil =>
    unfold run
    split
    · exact trivial
    · next hf => exact hl (Bool.eq_false_iff.2 hf)
  | cons token rest ih =>
    have hs := placesFaults_step reading h
    unfold run
    split
    · next fault hf =>
      rw [hf] at hs
      exact hs
    · exact ih _ h.2 fun _ => h.1.extent.mono (Nat.zero_le _) (Nat.le_refl _)

end Reading

theorem placesFaults_readDefinitions (source : Text.Source) :
    PlacesFaults 0 source.length (fun _ => True) (readDefinitions source) := by
  have ht := placesFaults_tokens source
  unfold readDefinitions
  split
  · next fault hf =>
    rw [hf] at ht
    exact ht
  · next read hr =>
    rw [hr] at ht
    -- a text without tokens holds no declarations, so its end is not blamed
    exact Reading.placesFaults_run Reading.start ht fun hf => by cases hf

/-! ### Static declarations -/

namespace StaticReading

theorem placesFaults_step (reading : StaticReading)
    (h : Token.ArePlaced length lower (token :: rest)) :
    PlacesFaults 0 length (fun _ => True) (reading.step token rest) := by
  have hb := within_blamed h
  cases reading with
  | start =>
    simp only [step]
    split
    · exact trivial
    · split
      · exact trivial
      · exact hb
  | published | fixed | referenced | named =>
    simp only [step]
    split
    · exact trivial
    · exact hb
  | inside isPublic name reading =>
    simp only [step]
    split
    · exact trivial
    · exact (Reading.placesFaults_step reading h).map fun _ _ => trivial
  | complete => exact hb

theorem placesFaults_finish (reading : StaticReading) (hl : last.Within 0 length) :
    PlacesFaults 0 length (fun _ => True) (reading.finish last) := by
  cases reading with
  | complete declaration => exact trivial
  | _ => exact hl

theorem placesFaults_run (reading : StaticReading) (h : Token.ArePlaced length lower tokens)
    (hl : last.Within 0 length) :
    PlacesFaults 0 length (fun _ => True) (reading.run last tokens) := by
  induction tokens generalizing reading last lower with
  | nil => exact placesFaults_finish reading hl
  | cons token rest ih =>
    have hs := placesFaults_step reading h
    unfold run
    split
    · next fault hf =>
      rw [hf] at hs
      exact hs
    · exact ih _ h.2 (h.1.extent.mono (Nat.zero_le _) (Nat.le_refl _))

end StaticReading

theorem placesFaults_readStatic {source : Text.Source} (h : 0 < source.length) :
    PlacesFaults 0 source.length (fun _ => True) (readStatic source) := by
  have ht := placesFaults_tokens source
  have hfirst : source.firstCharacter.Within 0 source.length := by
    refine ⟨Nat.zero_le _, ?_, ?_⟩ <;> simp only [Text.Source.firstCharacter] <;> omega
  unfold readStatic
  split
  · next fault hf =>
    rw [hf] at ht
    exact ht
  · next read hr =>
    rw [hr] at ht
    exact StaticReading.placesFaults_run _ ht hfirst

/-- The empty text is no static declaration. -/
theorem readStatic_empty : readStatic (Text.Source.ofString "") =
    .error ⟨.unexpectedEnd (.keyword "static"), ⟨0, 0⟩⟩ := by
  have ht : tokens (Text.Source.ofString "") = .ok [] := by
    unfold tokens
    rw [Lexing.read]
    rfl
  unfold readStatic
  rw [ht]
  rfl

end Group

/-! ### Compile errors -/

/-- The error is shown at a place of the text: from a character on, and to a later end. -/
def CompileError.IsPlacedIn (e : CompileError) (text : String) : Prop :=
  ∃ first last, first < last ∧ last ≤ text.length ∧
    e.span = (Text.Source.ofString text).span ⟨first, last⟩

/-- What is placed in the text leaves a result, or a fault that makes a placed error. -/
theorem PlacesFaults.exists_or_placed {α : Type} {P : α → Prop} {answer : Except Fault α}
    {text : String} (h : PlacesFaults 0 (Text.Source.ofString text).length P answer) :
    (∃ a, answer = .ok a) ∨ ∃ fault, answer = .error fault ∧
      CompileError.IsPlacedIn ⟨fault, Text.Source.ofString text⟩ text := by
  have hlength : (Text.Source.ofString text).length = text.length := String.length_toList
  cases answer with
  | ok a => exact .inl ⟨a, rfl⟩
  | error fault =>
    have hstop := Text.Extent.Within.stop_le h
    rw [hlength] at hstop
    exact .inr ⟨fault, rfl, fault.extent.start, fault.extent.stop, h.start_lt_stop, hstop, rfl⟩

theorem compileTemplate_result_or_placed_error (text : String) :
    (∃ definition, compileTemplate text = .ok definition) ∨
      ∃ e, compileTemplate text = .error e ∧ e.IsPlacedIn text := by
  unfold compileTemplate
  obtain ⟨expressions, hs⟩ | ⟨fault, hs, hp⟩ :=
    (Body.placesFaults_scan text.toList).exists_or_placed
  · exact .inl ⟨_, by rw [hs]⟩
  · exact .inr ⟨_, by rw [hs], hp⟩

theorem compileGroup_result_or_placed_error (text : String) :
    (∃ group, compileGroup text = .ok group) ∨
      ∃ e, compileGroup text = .error e ∧ e.IsPlacedIn text := by
  unfold compileGroup compileDefinitions
  dsimp only
  obtain ⟨definitions, hs⟩ | ⟨fault, hs, hp⟩ :=
    (Group.placesFaults_readDefinitions (Text.Source.ofString text)).exists_or_placed
  · exact .inl ⟨⟨definitions⟩, by rw [hs]; rfl⟩
  · exact .inr ⟨_, by rw [hs]; rfl, hp⟩

theorem compileStatic_result_or_placed_error {text : String} (h : text ≠ "") :
    (∃ declaration, compileStatic text = .ok declaration) ∨
      ∃ e, compileStatic text = .error e ∧ e.IsPlacedIn text := by
  have hpos : 0 < (Text.Source.ofString text).length := by
    refine List.length_pos_iff.2 fun he => h ?_
    exact String.toList_eq_nil_iff.1 he
  unfold compileStatic
  dsimp only
  obtain ⟨declaration, hs⟩ | ⟨fault, hs, hp⟩ :=
    (Group.placesFaults_readStatic hpos).exists_or_placed
  · exact .inl ⟨_, by rw [hs]⟩
  · exact .inr ⟨_, by rw [hs], hp⟩

/-- The range of a fault in a literal's value is one of indices that the literal has. -/
theorem Group.Token.extent_lt_length_offsets {literal : Group.Token} {lower upper : Nat}
    {fault : Fault} (hl : literal.PlacedIn lower upper) (hk : literal.kind = .string)
    (hf : Body.scan literal.value.toList = .error fault) :
    fault.extent.start < literal.offsets.length ∧ fault.extent.stop < literal.offsets.length := by
  have hb := Body.placesFaults_scan literal.value.toList
  rw [hf] at hb
  have hlength := hl.length_offsets hk
  have hlt := hb.start_lt_stop
  have hle := hb.stop_le
  omega

/-- **Compiling leaves a result or an error at a place of the text.**  Only the error for the empty
text, as a static declaration, is at a range that holds nothing.  Where a fault of a body is moved
to the text, its range is looked up among the indices that the literal has. -/
theorem compile_leaves_result_or_placed_error (text : String) :
    ((∃ definition, compileTemplate text = .ok definition) ∨
      ∃ e, compileTemplate text = .error e ∧ e.IsPlacedIn text) ∧
    ((∃ group, compileGroup text = .ok group) ∨
      ∃ e, compileGroup text = .error e ∧ e.IsPlacedIn text) ∧
    ((text ≠ "" ∧ ∃ declaration, compileStatic text = .ok declaration) ∨
      ∃ e, compileStatic text = .error e ∧ (text ≠ "" ∧ e.IsPlacedIn text ∨
        text = "" ∧ e.span = (Text.Source.ofString text).span ⟨0, 0⟩)) ∧
    ∀ read literal fault, Group.tokens (Text.Source.ofString text) = .ok read → literal ∈ read →
      literal.kind = .string → Body.scan literal.value.toList = .error fault →
      fault.extent.start < literal.offsets.length ∧ fault.extent.stop < literal.offsets.length := by
  refine ⟨compileTemplate_result_or_placed_error text, compileGroup_result_or_placed_error text,
    ?_, ?_⟩
  · by_cases he : text = ""
    · subst he
      unfold compileStatic
      dsimp only
      rw [Group.readStatic_empty]
      exact .inr ⟨_, rfl, .inr ⟨rfl, rfl⟩⟩
    · obtain ⟨declaration, hs⟩ | ⟨e, hs, hp⟩ := compileStatic_result_or_placed_error he
      · exact .inl ⟨he, declaration, hs⟩
      · exact .inr ⟨e, hs, .inl ⟨he, hp⟩⟩
  · intro read literal fault hr hm hk hs
    have ht := Group.placesFaults_tokens (Text.Source.ofString text)
    rw [hr] at ht
    exact Group.Token.extent_lt_length_offsets (ht.placedIn literal hm) hk hs

end TextTemplate
