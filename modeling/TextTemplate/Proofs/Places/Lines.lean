import TextTemplate.Text.Cut
import TextTemplate.Proofs.Places.Locations

/-!
# Locations in lines

The lines of a text are its pieces between the ends of line.  An end of line separates the lines in
front of it from those behind it (`splitAll_append_mark`), and everything else follows from that: a
range of a text whose two ends are located on one line stands in that line, behind as many
characters as its column says (`Source.exists_line`).  With the count of the ends of line this gives
what a location says of its index (`Source.locations_are_exact_and_ordered`).
-/

namespace TextTemplate

namespace Text

variable {mark : Char} {text front inner back piece : List Char}

/-! ### Pieces between marks -/

theorem splitAll_eq_splitOn (mark : Char) (text : List Char) :
    splitAll mark text = text.splitOn mark := by
  induction text with
  | nil => rfl
  | cons c rest ih =>
    obtain ⟨piece, pieces, hsplit⟩ := List.exists_cons_of_ne_nil (splitAll_ne_nil mark rest)
    rw [splitAll, List.splitOn, List.splitOnP_cons_eq_if_modifyHead, ← List.splitOn, ← ih, hsplit]
    by_cases hc : c = mark <;> simp [hc]

theorem splitAll_append_mark (mark : Char) (front back : List Char) :
    splitAll mark (front ++ mark :: back) = splitAll mark front ++ splitAll mark back := by
  simp only [splitAll_eq_splitOn, List.splitOn]
  exact List.splitOnP_append_cons front back (beq_self_eq_true mark)

theorem splitAll_of_not_mem (h : mark ∉ text) : splitAll mark text = [text] := by
  rw [splitAll_eq_splitOn, List.splitOn_eq_singleton h]

theorem length_splitAll (mark : Char) (text : List Char) :
    (splitAll mark text).length = text.count mark + 1 := by
  induction text with
  | nil => rfl
  | cons c rest ih =>
    obtain ⟨piece, pieces, hsplit⟩ := List.exists_cons_of_ne_nil (splitAll_ne_nil mark rest)
    rw [hsplit] at ih
    by_cases hc : c = mark
    · simp_all [splitAll]
    · simp_all [splitAll]

/-- The pieces hold nothing that is not in the text. -/
theorem mem_of_mem_splitAll {c : Char} (hp : piece ∈ splitAll mark text) (hc : c ∈ piece) :
    c ∈ text := by
  induction text generalizing piece with
  | nil => simp_all [splitAll]
  | cons d rest ih =>
    obtain ⟨head, pieces, hsplit⟩ := List.exists_cons_of_ne_nil (splitAll_ne_nil mark rest)
    rw [splitAll, hsplit] at hp
    rw [hsplit] at ih
    split at hp <;> grind

/-! ### The line of a place -/

/-- Behind a front, the line goes on that the front has begun. -/
theorem exists_splitAll_front (front : List Char) :
    ∃ lines before, lines.length = front.count '\n' ∧ '\n' ∉ before ∧
      lastLineStart front + before.length = front.length ∧
      ∀ back, splitAll '\n' (front ++ back) = lines ++ splitAll '\n' (before ++ back) := by
  have hstart := startsLastLine front
  generalize lastLineStart front = start at hstart
  cases hstart with
  | only hbefore =>
    exact ⟨[], front, (List.count_eq_zero.2 hbefore).symm, hbefore, Nat.zero_add _, fun _ => rfl⟩
  | @behind lines before hbefore =>
    refine ⟨splitAll '\n' lines, before, ?_, hbefore, ?_, fun back => ?_⟩
    · simp [length_splitAll, List.count_eq_zero.2 hbefore]
    · rw [List.length_append, List.length_cons]
      omega
    · rw [List.append_assoc, List.cons_append, splitAll_append_mark]

/-- A line ends at the next end of line, or with the text. -/
theorem exists_splitAll_back (inner back : List Char) (hi : '\n' ∉ inner) :
    ∃ after later, splitAll '\n' (inner ++ back) = (inner ++ after) :: later := by
  by_cases hm : '\n' ∈ back
  · obtain ⟨after, rest, rfl, hafter⟩ := List.eq_append_cons_of_mem hm
    refine ⟨after, splitAll '\n' rest, ?_⟩
    rw [← List.append_assoc, splitAll_append_mark, splitAll_of_not_mem (by simp [hi, hafter])]
    rfl
  · exact ⟨back, [], splitAll_of_not_mem (by simp [hi, hm])⟩

/-- Characters that end no line stand in one line of the text. -/
theorem exists_line_of_not_mem (front : List Char) (hi : '\n' ∉ inner) (back : List Char) :
    ∃ before after, lastLineStart front + before.length = front.length ∧
      (splitAll '\n' (front ++ inner ++ back))[front.count '\n']? =
        some (before ++ inner ++ after) := by
  obtain ⟨lines, before, hlines, hbefore, hlength, hsplit⟩ := exists_splitAll_front front
  obtain ⟨after, later, hline⟩ :=
    exists_splitAll_back (before ++ inner) back (by simp [hbefore, hi])
  refine ⟨before, after, hlength, ?_⟩
  rw [List.append_assoc, hsplit, ← List.append_assoc, hline, ← hlines]
  simp

namespace Source

variable {source : Source} {first last : Nat}

/-- No line ends between two indices that are located on one line. -/
theorem not_mem_of_line_eq (h : first ≤ last)
    (hline : (source.location first).line = (source.location last).line) :
    '\n' ∉ (⟨first, last⟩ : Extent).slice source.text := by
  obtain ⟨length, rfl⟩ := Nat.exists_eq_add_of_le h
  simp only [location_eq, List.take_add, List.count_append] at hline
  rw [Extent.slice, Extent.length, Nat.add_sub_cancel_left]
  exact List.count_eq_zero.1 (by dsimp only; omega)

/-- **A range that is located on one line stands in that line**, behind as many characters as its
column says, and it ends as many columns further on as it has characters. -/
theorem exists_line (h : first ≤ last) (hlast : last ≤ source.length)
    (hline : (source.location first).line = (source.location last).line) :
    let inner := (⟨first, last⟩ : Extent).slice source.text
    ∃ before after,
      (splitAll '\n' source.text)[(source.location first).line - 1]? =
        some (before ++ inner ++ after) ∧
      inner.length = last - first ∧ (source.location first).column = before.length ∧
      (source.location last).column = before.length + inner.length := by
  intro inner
  have hnone : '\n' ∉ inner := not_mem_of_line_eq h hline
  have hfirst : (source.text.take first).length = first :=
    List.length_take_of_le (Nat.le_trans h hlast)
  have htake : source.text.take last = source.text.take first ++ inner := by
    rw [← Nat.add_sub_cancel' h, List.take_add]
    rfl
  have hinner : inner.length = last - first := by
    have hlength := congrArg List.length htake
    rw [List.length_append, hfirst, List.length_take_of_le hlast] at hlength
    omega
  obtain ⟨before, after, hlength, hget⟩ :=
    exists_line_of_not_mem (source.text.take first) hnone (source.text.drop last)
  rw [← htake, List.take_append_drop] at hget
  rw [hfirst] at hlength
  refine ⟨before, after, ?_, hinner, ?_, ?_⟩
  · rw [location_eq]
    exact hget
  · rw [location_eq]
    show first - lastLineStart (source.text.take first) = before.length
    omega
  · rw [location_eq, htake, lastLineStart_append _ hnone]
    show last - lastLineStart (source.text.take first) = before.length + inner.length
    omega

/-- **Locations are exact, and they tell indices apart.**

* The line of an index is the number of ends of line in front of it, and one more.  Its column is
  its distance from the start of that line, also for an index past the end of the text.
* Locations are ordered as their indices, by line and then by column.  So different indices have
  different locations.
* An index up to the end of the text is located on one of the lines of the text, and its column is
  at most the length of that line. -/
theorem locations_are_exact_and_ordered (source : Source) :
    (∀ index, ∃ start ≤ index, StartsLastLine (source.text.take index) start ∧
      source.location index = ⟨1 + (source.text.take index).count '\n', index - start⟩) ∧
    (StrictMono fun index =>
      toLex ((source.location index).line, (source.location index).column)) ∧
    Function.Injective source.location ∧
    ∀ index ≤ source.length,
      (source.location index).line ≤ source.text.count '\n' + 1 ∧
      ∃ line, (splitAll '\n' source.text)[(source.location index).line - 1]? = some line ∧
        (source.location index).column ≤ line.length := by
  refine ⟨fun index => ?_, source.strictMono_location, source.location_injective,
    fun index h => ⟨?_, ?_⟩⟩
  · have hle : lastLineStart (source.text.take index) ≤ index :=
      Nat.le_trans (lastLineStart_le _) (List.length_take_le _ _)
    refine ⟨lastLineStart (source.text.take index), hle, startsLastLine _, ?_⟩
    rw [location_eq, Nat.add_comm]
  · rw [location_eq]
    exact Nat.succ_le_succ ((List.take_sublist index source.text).count_le '\n')
  · obtain ⟨before, after, hget, -, hcolumn, -⟩ := exists_line (Nat.le_refl index) h rfl
    refine ⟨_, hget, ?_⟩
    rw [hcolumn, List.length_append, List.length_append, Nat.add_assoc]
    exact Nat.le_add_right _ _

/-- The last line is empty.  The end of the text is located in it, and the columns go on past the
end. -/
theorem locations_are_exact_and_ordered_of_empty_last_line :
    let source := ofString "ab\ncd\n"
    6 ≤ source.length ∧ source.location 6 = ⟨3, 0⟩ ∧ source.location 9 = ⟨3, 3⟩ ∧
      source.location 5 ≠ source.location 6 ∧ 3 ≤ source.text.count '\n' + 1 ∧
      ∃ line, (splitAll '\n' source.text)[2]? = some line ∧ 0 ≤ line.length := by
  intro source
  have hend : source.location 6 = ⟨3, 0⟩ := by decide
  obtain ⟨-, -, hinjective, hbounds⟩ := locations_are_exact_and_ordered source
  obtain ⟨hline, hcolumn⟩ := hbounds 6 (by decide)
  rw [hend] at hline hcolumn
  exact ⟨by decide, hend, by decide, hinjective.ne (by decide), hline, hcolumn⟩

end Source

end Text

end TextTemplate
