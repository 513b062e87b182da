import TextTemplate.Body.Scan
import TextTemplate.Proofs.Except

/-!
# Places of faults in a body

A fault is *placed* when the range it blames is not empty and lies between two indices
(`Text.Extent.Within`).  `PlacesFaults` says of a reader's answer that it is a result with some
property, or a fault that is placed: so what a reader promises of its results and of its faults is
stated and proved at once.

Reading a body places its faults inside the body (`Body.placesFaults_scan`): a fault in an
expression blames one item of it or its closing bracket, and an expression without a closing bracket
is blamed to the end.
-/

namespace TextTemplate

/-- The range is not empty, and lies between two indices. -/
structure Text.Extent.Within (lower upper : Nat) (e : Text.Extent) : Prop where
  lower_le : lower ≤ e.start
  start_lt_stop : e.start < e.stop
  stop_le : e.stop ≤ upper

theorem Text.Extent.Within.mono {lower upper lower' upper' : Nat} {e : Text.Extent}
    (h : e.Within lower upper) (hl : lower' ≤ lower) (hu : upper ≤ upper') :
    e.Within lower' upper' :=
  ⟨Nat.le_trans hl h.lower_le, h.start_lt_stop, Nat.le_trans h.stop_le hu⟩

/-- From the start of one range to the end of a later one. -/
theorem Text.Extent.Within.join {lower upper : Nat} {first last : Text.Extent}
    (hf : first.Within lower upper) (hl : last.Within lower upper)
    (h : first.stop ≤ last.start) : (first.join last).Within lower upper := by
  refine ⟨hf.lower_le, ?_, hl.stop_le⟩
  have := hf.start_lt_stop
  have := hl.start_lt_stop
  simp only [Text.Extent.join]
  omega

/-- The answer is a result with the property, or a fault placed between the two indices. -/
def PlacesFaults {α : Type} (lower upper : Nat) (P : α → Prop) : Except Fault α → Prop
  | .ok a => P a
  | .error fault => fault.extent.Within lower upper

namespace PlacesFaults

variable {α β : Type} {lower upper lower' upper' : Nat} {P : α → Prop} {Q : β → Prop}
  {answer : Except Fault α}

/-- Weaker bounds and a weaker property. -/
theorem mono {P' : α → Prop} (h : PlacesFaults lower upper P answer) (hl : lower' ≤ lower)
    (hu : upper ≤ upper') (hP : ∀ a, P a → P' a) : PlacesFaults lower' upper' P' answer := by
  cases answer with
  | ok a => exact hP a h
  | error fault => exact Text.Extent.Within.mono h hl hu

theorem map {f : α → β} (h : PlacesFaults lower upper P answer) (hf : ∀ a, P a → Q (f a)) :
    PlacesFaults lower upper Q (answer.map f) := by
  cases answer with
  | ok a => exact hf a h
  | error fault => exact h

end PlacesFaults

namespace Body

/-! ### One expression -/

/-- The items of a text stand in it. -/
theorem index_of_mem_items {index : Nat} {text : List Char} :
    ∀ item ∈ items index text, index ≤ item.index ∧ item.index < index + text.length := by
  fun_induction items index text with
  | case1 index => simp
  | case2 index c rest hb ih =>
    intro item hm
    have := ih item hm
    simp only [List.length_cons]
    omega
  | case3 index c rest hb hs others ih =>
    intro item hm
    have hle : others.length ≤ rest.length := List.takeWhile_sublist _ |>.length_le
    simp only [List.length_cons]
    rcases List.mem_cons.1 hm with rfl | hm
    · simp only
      omega
    · have := ih item hm
      rw [List.length_drop] at this
      omega
  | case4 index c rest hb hs ih =>
    intro item hm
    simp only [List.length_cons]
    rcases List.mem_cons.1 hm with rfl | hm
    · simp only
      omega
    · have := ih item hm
      omega

/-- The answer is a result, or a fault that blames one of the items or the closing bracket. -/
def BlamesItem {α : Type} (close : Nat) (items : List PlacedItem) : Except Fault α → Prop
  | .ok _ => True
  | .error fault => ∃ index, fault.extent = ⟨index, index + 1⟩ ∧
      (index = close ∨ index ∈ items.map PlacedItem.index)

section

variable {α β : Type} {close : Nat} {items later : List PlacedItem} {item : PlacedItem}
  {answer : Except Fault α}

theorem BlamesItem.map (h : BlamesItem close items answer) (f : α → β) :
    BlamesItem close items (answer.map f) := by
  cases answer with
  | ok a => exact trivial
  | error fault => exact h

/-- What blames a later item blames an item. -/
theorem BlamesItem.cons (h : BlamesItem close items answer) :
    BlamesItem close (item :: items) answer := by
  cases answer with
  | ok a => exact trivial
  | error fault =>
    obtain ⟨index, he, hi⟩ := h
    exact ⟨index, he, hi.imp_right (List.mem_cons_of_mem _)⟩

theorem blamesItem_close (problem : Problem) :
    BlamesItem close items (.error (blame problem close) : Except Fault α) :=
  ⟨close, rfl, .inl rfl⟩

theorem blamesItem_head (problem : Problem) :
    BlamesItem close (item :: items) (.error (blame problem item.index) : Except Fault α) :=
  ⟨item.index, rfl, .inr List.mem_cons_self⟩

theorem blamesItem_placeOf (problem : Problem) :
    BlamesItem close items (.error (blame problem (placeOf close items)) : Except Fault α) := by
  cases items with
  | nil => exact blamesItem_close problem
  | cons item rest => exact blamesItem_head problem

theorem blamesItem_readEnd : BlamesItem close items (readEnd items) := by
  cases items with
  | nil => exact trivial
  | cons item rest => exact blamesItem_head _

theorem blamesItem_readSegments : BlamesItem close items (readSegments close items) := by
  fun_induction readSegments close items with
  | case1 _ _ _ _ rest ih => exact (ih.map _).cons.cons
  | case2 _ rest => exact (blamesItem_placeOf _).cons
  | case3 rest => exact blamesItem_readEnd.map _

theorem blamesItem_readArguments : BlamesItem close items (readArguments close items) := by
  fun_induction readArguments close items with
  | case1 _ _ _ _ rest ih => exact (ih.map _).cons.cons
  | case2 _ _ _ _ rest => exact (blamesItem_readEnd.map _).cons.cons
  | case3 _ _ _ item rest => exact (blamesItem_head _).cons
  | case4 => exact blamesItem_close _
  | case5 rest => exact blamesItem_placeOf _

theorem blamesItem_readExpression (close : Nat) (items : List PlacedItem) :
    BlamesItem close items (readExpression close items) := by
  unfold readExpression
  split
  · exact (blamesItem_readEnd.map _).cons.cons.cons
  · exact (blamesItem_readArguments.map _).cons.cons
  · exact (blamesItem_readSegments.map _).cons
  · exact blamesItem_placeOf _

end

/-- A fault in an expression is placed between its brackets, or at the closing one. -/
theorem placesFaults_readExpression (index : Nat) (content : List Char) :
    PlacesFaults index (index + content.length + 1) (fun _ => True)
      (readExpression (index + content.length) (items index content)) := by
  have h := blamesItem_readExpression (index + content.length) (items index content)
  cases ha : readExpression (index + content.length) (items index content) with
  | ok expression => exact trivial
  | error fault =>
    rw [ha] at h
    obtain ⟨place, he, hp⟩ := h
    have hb : index ≤ place ∧ place ≤ index + content.length := by
      rcases hp with rfl | hm
      · omega
      · obtain ⟨item, hi, rfl⟩ := List.mem_map.1 hm
        have := index_of_mem_items item hi
        omega
    show fault.extent.Within _ _
    rw [he]
    exact ⟨hb.1, Nat.lt_succ_self _, Nat.succ_le_succ hb.2⟩

/-! ### The whole body -/

theorem placesFaults_scanFrom (index : Nat) (text : List Char) :
    PlacesFaults index (index + text.length) (fun _ => True) (scanFrom index text) := by
  induction hn : text.length using Nat.strongRecOn generalizing index text with
  | _ n ih =>
    rw [scanFrom]
    split
    · exact trivial
    · next run inner ho =>
      have htext := congrArg List.length (Text.cutAt?_eq_some_iff.1 ho).1
      simp only [List.length_append, List.length_cons] at htext
      dsimp only
      split
      · -- the bracket is blamed, and all that follows it
        refine ⟨?_, ?_, ?_⟩ <;> simp only <;> omega
      · next content later hi =>
        have hinner := congrArg List.length (Text.cutAt?_eq_some_iff.1 hi).1
        simp only [List.length_append, List.length_cons] at hinner
        have he := placesFaults_readExpression (index + run.length + 1) content
        split
        · next fault hf =>
          rw [hf] at he
          exact Text.Extent.Within.mono he (by omega) (by omega)
        · have hshort : later.length < n := by omega
          have hl := ih _ hshort (index + run.length + 1 + content.length + 1) later rfl
          exact (hl.mono (by omega) (by omega) fun _ h => h).map fun _ h => h

/-- **Faults of a body are placed in the body.** -/
theorem placesFaults_scan (text : List Char) :
    PlacesFaults 0 text.length (fun _ => True) (scan text) := by
  have h := placesFaults_scanFrom 0 text
  rwa [Nat.zero_add] at h

end Body

end TextTemplate
