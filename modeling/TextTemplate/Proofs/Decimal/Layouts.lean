import Mathlib.Tactic.Linarith
import TextTemplate.Proofs.Decimal.Numerals
import TextTemplate.Proofs.Decimal.Values
import TextTemplate.Value.Render

/-!
# Layouts are exact

What a layout writes is a number in the notation of JSON, and its value is the number laid out.

* Written plainly, the digits stand around the point, and zeros fill the gap between them: behind
  the digits, or in front of them, or nowhere (`Layout.exists_plain_parts`).  Only where they stand
  behind the digits does the fraction end in a zero.
* Written with an exponent, the point stands behind the first digit, and the power of ten of the
  whole makes up for that (`Layout.exists_scientific`).

Both are stated of digits that neither begin nor end in a zero, as those of a reduced decimal, and
`Layout.exists_numeral` puts them together.  No two numerals have the same text, so what is written
tells the sign and the number (`Layout.signed_inj`), for floating point numbers those of the
shortest decimal (`Value.float_texts_are_exact`).
-/

namespace TextTemplate

open Numeral

namespace Layout

variable {layout : Layout} {digits : Digits} {point : Int}

/-! ### Plain numbers -/

/-- Zeros fill up digits that end in front of the point. -/
theorem exists_plain_of_length_le (h : digits.chars.length ≤ point) :
    ∃ whole fraction : Digits,
      plain digits.chars point = whole.chars ++ '.' :: fraction.chars ∧
      whole.chars.head? = digits.chars.head? ∧ fraction.chars = ['0'] ∧
      (whole.toNat + fraction.fraction : ℚ) =
        digits.toNat * 10 ^ (point - digits.chars.length) := by
  obtain ⟨zeros, hzeros⟩ := Int.eq_ofNat_of_zero_le (Int.sub_nonneg_of_le h)
  refine ⟨⟨digits.chars ++ List.replicate zeros '0', by simp [digits.chars_ne_nil], fun c hc =>
      (List.mem_append.1 hc).elim (digits.isDigit_of_mem c) Digits.isDigit_of_mem_replicate⟩,
    .zero, ?_, ?_, rfl, ?_⟩
  · rw [plain, if_pos h, hzeros]
    simp
  · rw [List.head?_append_of_ne_nil _ digits.chars_ne_nil]
  · rw [Digits.toNat_add_fraction, hzeros, zpow_natCast, Digits.toNat]
    simp only [Digits.chars_zero, Nat.ofDigitChars_append, Nat.ofDigitChars_replicate_zero,
      Nat.ofDigitChars_cons, Nat.ofDigitChars_nil, List.length_singleton]
    push_cast
    ring

/-- The point stands between digits. -/
theorem exists_plain_of_lt_length (hpos : 0 < point) (h : point < digits.chars.length) :
    ∃ whole fraction : Digits,
      plain digits.chars point = whole.chars ++ '.' :: fraction.chars ∧
      whole.chars.head? = digits.chars.head? ∧
      fraction.chars.getLast? = digits.chars.getLast? ∧
      (whole.toNat + fraction.fraction : ℚ) =
        digits.toNat * 10 ^ (point - digits.chars.length) := by
  obtain ⟨n, rfl⟩ := Int.eq_ofNat_of_zero_le hpos.le
  have hn : 0 < n ∧ n < digits.chars.length := by omega
  refine ⟨⟨digits.chars.take n, by simp [digits.chars_ne_nil]; omega,
      fun c hc => digits.isDigit_of_mem c (List.mem_of_mem_take hc)⟩,
    ⟨digits.chars.drop n, by simp; omega,
      fun c hc => digits.isDigit_of_mem c (List.mem_of_mem_drop hc)⟩, ?_, ?_, ?_, ?_⟩
  · rw [plain, if_neg (by omega), if_pos hpos]
    rfl
  · rw [List.head?_take, if_neg (by omega)]
  · rw [List.getLast?_drop, if_neg (by omega)]
  · have hexponent : (n : Int) - digits.chars.length = -(digits.chars.length - n : Nat) := by omega
    rw [Digits.toNat_add_fraction, hexponent, zpow_neg, zpow_natCast, List.take_append_drop,
      List.length_drop, Digits.toNat, div_eq_mul_inv]

/-- Zeros stand between the point and the digits. -/
theorem exists_plain_of_nonpos (digits : Digits) (h : point ≤ 0) :
    ∃ whole fraction : Digits,
      plain digits.chars point = whole.chars ++ '.' :: fraction.chars ∧
      whole.chars = ['0'] ∧ fraction.chars.getLast? = digits.chars.getLast? ∧
      (whole.toNat + fraction.fraction : ℚ) =
        digits.toNat * 10 ^ (point - digits.chars.length) := by
  obtain ⟨zeros, hzeros⟩ := Int.eq_ofNat_of_zero_le (Int.neg_nonneg_of_nonpos h)
  have hlength := List.length_pos_iff.2 digits.chars_ne_nil
  refine ⟨.zero, .padded zeros digits, ?_, rfl, ?_, ?_⟩
  · rw [plain, if_neg (by omega), if_neg (by omega), hzeros]
    rfl
  · exact List.getLast?_append_of_ne_nil _ digits.chars_ne_nil
  · have hexponent : point - digits.chars.length = -(zeros + digits.chars.length : Nat) := by omega
    have hwhole : Digits.zero.toNat = 0 := rfl
    rw [hwhole, Digits.fraction, Digits.toNat_padded, hexponent, zpow_neg, zpow_natCast,
      Nat.cast_zero, zero_add, div_eq_mul_inv, Digits.padded, List.length_append,
      List.length_replicate]

/-- The parts of a number without an exponent, where the digits neither begin nor end in a zero. -/
theorem exists_plain_parts (hhead : digits.chars.head? ≠ some '0')
    (hlast : digits.chars.getLast? ≠ some '0') (point : Int) :
    ∃ whole fraction : Digits,
      plain digits.chars point = whole.chars ++ '.' :: fraction.chars ∧
      (whole.chars.head? = some '0' → whole.chars = ['0']) ∧
      (fraction.chars.getLast? = some '0' →
        fraction.chars = ['0'] ∧ digits.chars.length ≤ point) ∧
      (whole.toNat + fraction.fraction : ℚ) =
        digits.toNat * 10 ^ (point - digits.chars.length) := by
  rcases lt_or_ge point digits.chars.length with hlt | hle
  · rcases lt_or_ge 0 point with hpos | hnonpos
    · obtain ⟨whole, fraction, htext, hwhole, hfraction, hvalue⟩ :=
        exists_plain_of_lt_length hpos hlt
      exact ⟨whole, fraction, htext, fun h => absurd (hwhole.symm.trans h) hhead,
        fun h => absurd (hfraction.symm.trans h) hlast, hvalue⟩
    · obtain ⟨whole, fraction, htext, hwhole, hfraction, hvalue⟩ :=
        exists_plain_of_nonpos digits hnonpos
      exact ⟨whole, fraction, htext, fun _ => hwhole,
        fun h => absurd (hfraction.symm.trans h) hlast, hvalue⟩
  · obtain ⟨whole, fraction, htext, hwhole, hfraction, hvalue⟩ := exists_plain_of_length_le hle
    exact ⟨whole, fraction, htext, fun h => absurd (hwhole.symm.trans h) hhead,
      fun _ => ⟨hfraction, hle⟩, hvalue⟩

theorem exists_plain (isNegative : Bool) (hhead : digits.chars.head? ≠ some '0')
    (hlast : digits.chars.getLast? ≠ some '0') (point : Int) :
    ∃ numeral : Numeral, numeral.text = signText isNegative ++ plain digits.chars point ∧
      numeral.value = (if isNegative then -1 else 1) *
        (digits.toNat * 10 ^ (point - digits.chars.length)) ∧
      numeral.scale = none ∧
      (∀ behind, numeral.fraction = some behind → behind.chars.getLast? = some '0' →
        behind.chars = ['0'] ∧ digits.chars.length ≤ point) ∧
      '.' ∈ numeral.text := by
  obtain ⟨whole, fraction, htext, hwhole, hfraction, hvalue⟩ := exists_plain_parts hhead hlast point
  let numeral : Numeral := ⟨isNegative, whole, some fraction, none, hwhole⟩
  have hnumeral : numeral.text = signText isNegative ++ plain digits.chars point := by
    rw [htext, Numeral.text, tail]
    simp [numeral]
  refine ⟨numeral, hnumeral, ?_, rfl, ?_, ?_⟩
  · simp only [numeral, Numeral.value, Option.elim, zpow_zero, mul_one, hvalue]
  · rintro behind ⟨⟩ hzero
    exact hfraction hzero
  · simp [hnumeral, htext]

/-! ### Numbers with an exponent -/

/-- The exponent is one that can be read back. -/
theorem exists_scale (hsign : layout.positiveSign = [] ∨ layout.positiveSign = ['+'])
    (exponent : Int) :
    ∃ scale : Scale, 'e' :: layout.exponentText exponent = scale.text ∧
      scale.exponent = exponent := by
  let digits : Digits := .padded
    (layout.exponentWidth - (Nat.toDigits 10 exponent.natAbs).length) (.ofNat exponent.natAbs)
  have hdigits : digits.toNat = exponent.natAbs := by simp [digits]
  rcases lt_or_ge exponent 0 with hneg | hnonneg
  · refine ⟨⟨'e', ['-'], digits, .inl rfl, .inr (.inr rfl)⟩, ?_, ?_⟩
    · rw [exponentText, if_pos hneg, List.append_assoc]
      rfl
    · rw [Scale.exponent, if_pos rfl, hdigits]
      omega
  · refine ⟨⟨'e', layout.positiveSign, digits, .inl rfl, by tauto⟩, ?_, ?_⟩
    · rw [exponentText, if_neg (by omega), List.append_assoc]
      rfl
    · have hplus : layout.positiveSign ≠ ['-'] := by rcases hsign with h | h <;> simp [h]
      rw [Scale.exponent, if_neg hplus, hdigits]
      omega

/-- The parts of a number with an exponent. -/
theorem exists_scientific_parts (layout : Layout) (digits : Digits) :
    ∃ (whole : Digits) (fraction : Option Digits),
      (∀ exponent, layout.scientific digits.chars exponent = whole.chars ++
        (fraction.elim [] (fun digits => '.' :: digits.chars) ++
          'e' :: layout.exponentText exponent)) ∧
      whole.chars.head? = digits.chars.head? ∧
      (∀ behind, fraction = some behind → behind.chars.getLast? = digits.chars.getLast?) ∧
      (whole.toNat + fraction.elim 0 Digits.fraction : ℚ) =
        digits.toNat * 10 ^ (1 - digits.chars.length : Int) := by
  obtain ⟨_ | ⟨c, behind⟩, hne, hdigit⟩ := digits
  · exact absurd rfl hne
  let first : Digits := ⟨[c], by simp, fun d hd => hdigit d (by simp_all)⟩
  cases behind with
  | nil =>
    refine ⟨first, none, fun exponent => rfl, rfl, by simp, ?_⟩
    simp [first, Digits.toNat]
  | cons d behind =>
    let others : Digits := ⟨d :: behind, by simp, fun e he => hdigit e (List.mem_cons_of_mem c he)⟩
    refine ⟨first, some others, fun exponent => ?_, rfl, ?_, ?_⟩
    · rw [scientific, List.append_assoc]
      rfl
    · rintro _ ⟨⟩
      rw [List.getLast?_cons_cons]
    · have hlength : (1 : Int) - (c :: d :: behind).length = -((d :: behind).length : Int) := by
        simp only [List.length_cons]
        omega
      rw [hlength, zpow_neg, zpow_natCast, ← div_eq_mul_inv]
      exact Digits.toNat_add_fraction first others

theorem exists_scientific (isNegative : Bool)
    (hsign : layout.positiveSign = [] ∨ layout.positiveSign = ['+'])
    (hhead : digits.chars.head? ≠ some '0') (hlast : digits.chars.getLast? ≠ some '0')
    (exponent : Int) :
    ∃ numeral : Numeral,
      numeral.text = signText isNegative ++ layout.scientific digits.chars exponent ∧
      numeral.value = (if isNegative then -1 else 1) *
        (digits.toNat * 10 ^ (exponent + 1 - digits.chars.length)) ∧
      numeral.scale ≠ none ∧
      (∀ behind, numeral.fraction = some behind → behind.chars.getLast? ≠ some '0') ∧
      'e' ∈ numeral.text := by
  obtain ⟨whole, fraction, htext, hwhole, hfraction, hvalue⟩ :=
    exists_scientific_parts layout digits
  obtain ⟨scale, hscale, hexponent⟩ := exists_scale hsign exponent
  let numeral : Numeral := ⟨isNegative, whole, fraction, some scale,
    fun h => absurd (hwhole.symm.trans h) hhead⟩
  have hnumeral :
      numeral.text = signText isNegative ++ layout.scientific digits.chars exponent := by
    rw [htext, hscale]
    rfl
  refine ⟨numeral, hnumeral, ?_, Option.some_ne_none scale, ?_, ?_⟩
  · have hsum : exponent + 1 - digits.chars.length = (1 - digits.chars.length) + exponent := by
      omega
    simp only [numeral, Numeral.value, Option.elim, hexponent, hsum]
    rw [zpow_add₀ (by norm_num), ← mul_assoc (digits.toNat : ℚ), ← hvalue]
    rfl
  · exact fun behind hbehind => (hfraction behind hbehind).trans_ne hlast
  · simp [hnumeral, htext]

/-! ### All numbers -/

/-- **A layout writes positive and negative numbers exactly.** -/
theorem exists_numeral {d : Decimal}
    (hsign : layout.positiveSign = [] ∨ layout.positiveSign = ['+']) (isNegative : Bool)
    (h : d.coefficient ≠ 0) :
    ∃ numeral : Numeral, numeral.text = layout.signed isNegative d ∧
      numeral.value = (if isNegative then -1 else 1) * d.value ∧
      (numeral.scale = none ↔
        10 ^ layout.plainFrom ≤ d.value ∧ d.value < 10 ^ layout.plainBelow) ∧
      (∀ behind, numeral.fraction = some behind → behind.chars.getLast? = some '0' →
        behind.chars = ['0'] ∧ numeral.scale = none ∧ ∃ n : Nat, d.value = n) ∧
      ('.' ∈ numeral.text ∨ 'e' ∈ numeral.text) := by
  let digits : Digits := .ofNat d.reduced.coefficient
  have hreduced := Decimal.coefficient_reduced_ne_zero h
  have hhead : digits.chars.head? ≠ some '0' := head?_toDigits_ne_zero hreduced
  have hlast : digits.chars.getLast? ≠ some '0' :=
    getLast?_toDigits_ne_zero (Decimal.coefficient_reduced_mod_ten h)
  have hdigits : digits.toNat = d.reduced.coefficient := Digits.toNat_ofNat _
  have hlength : d.reduced.magnitude + 1 - digits.chars.length = d.reduced.exponent := by
    rw [Decimal.magnitude_add_one]
    exact add_sub_cancel_left _ _
  have hvalue : digits.toNat * 10 ^ d.reduced.exponent = d.value := by
    rw [hdigits, ← Decimal.value, Decimal.value_reduced]
  have hrange : layout.plainFrom ≤ d.reduced.magnitude ∧ d.reduced.magnitude < layout.plainBelow ↔
      10 ^ layout.plainFrom ≤ d.value ∧ d.value < 10 ^ layout.plainBelow := by
    rw [← Decimal.zpow_le_value_iff hreduced, ← Decimal.value_lt_zpow_iff hreduced,
      Decimal.value_reduced]
  have htext : layout.signed isNegative d = signText isNegative ++ layout.positive d := by
    rw [signed, if_neg h]
    rfl
  rw [← hrange, htext, positive]
  -- both ways of writing start from the same digits, at the same distance from the point
  by_cases hplain :
      layout.plainFrom ≤ d.reduced.magnitude ∧ d.reduced.magnitude < layout.plainBelow
  · obtain ⟨numeral, hwritten, hnumber, hscale, hfraction, hmark⟩ :=
      exists_plain isNegative hhead hlast (d.reduced.magnitude + 1)
    rw [hlength, hvalue] at hnumber
    refine ⟨numeral, ?_, hnumber, iff_of_true hscale hplain, fun behind hbehind hzero => ?_,
      .inl hmark⟩
    · rw [if_pos hplain]
      exact hwritten
    · obtain ⟨hpoint, hwide⟩ := hfraction behind hbehind hzero
      have hnatural := Decimal.exists_value_eq_natCast (d := d.reduced) (by omega)
      rw [Decimal.value_reduced] at hnatural
      exact ⟨hpoint, hscale, hnatural⟩
  · obtain ⟨numeral, hwritten, hnumber, hscale, hfraction, hmark⟩ :=
      exists_scientific isNegative hsign hhead hlast d.reduced.magnitude
    rw [hlength, hvalue] at hnumber
    refine ⟨numeral, ?_, hnumber, iff_of_false hscale hplain,
      fun behind hbehind hzero => absurd hzero (hfraction behind hbehind), .inr hmark⟩
    rw [if_neg hplain]
    exact hwritten

/-- What is written tells the sign and the number. -/
theorem signed_inj {d d' : Decimal} {isNegative isNegative' : Bool}
    (hsign : layout.positiveSign = [] ∨ layout.positiveSign = ['+']) (hd : d.coefficient ≠ 0)
    (hd' : d'.coefficient ≠ 0) (h : layout.signed isNegative d = layout.signed isNegative' d') :
    isNegative = isNegative' ∧ d.value = d'.value := by
  obtain ⟨numeral, htext, hvalue, -⟩ := exists_numeral hsign isNegative hd
  obtain ⟨numeral', htext', hvalue', -⟩ := exists_numeral hsign isNegative' hd'
  obtain rfl : numeral = numeral' := text_injective (by rw [htext, htext', h])
  have hpos := Decimal.value_pos hd
  have hpos' := Decimal.value_pos hd'
  rw [hvalue] at hvalue'
  cases isNegative <;> cases isNegative' <;> simp at hvalue' ⊢ <;> linarith

end Layout

namespace Binary64

variable {x : Binary64} {d : Decimal}

/-! ### Shortest decimals -/

theorem compareScaled_zero {b : Nat} (hb : 0 < b) (i j : Int) : compareScaled 0 i b j = .lt := by
  have hpos : 0 < b * Nat.pow 2 j.toNat * Nat.pow 10 (-i).toNat :=
    Nat.mul_pos (Nat.mul_pos hb (Nat.pow_pos (by decide))) (Nat.pow_pos (by decide))
  rw [compareScaled, Nat.zero_mul, Nat.zero_mul]
  exact Nat.compare_eq_lt.2 hpos

/-- Zero reads back as no other number. -/
theorem coefficient_ne_zero_of_readsBack (hx : x.mantissa ≠ 0) (h : x.readsBack d = true) :
    d.coefficient ≠ 0 := by
  intro hzero
  have hlow : 0 < if x.isNarrowBelow then 4 * x.mantissa - 1 else 4 * x.mantissa - 2 := by
    split <;> omega
  simp [readsBack, hzero, compareScaled_zero hlow] at h

theorem readsBack_of_nearestOn? {grid : Int} (h : x.nearestOn? grid = some d) :
    x.readsBack d = true := by
  unfold nearestOn? at h
  grind

/-- The shortest decimal of a number is zero only for a zero. -/
theorem coefficient_shortest_ne_zero (h : x.isZero = false) : x.shortest.coefficient ≠ 0 := by
  have hx : x.mantissa ≠ 0 := by simpa [isZero] using h
  refine Decimal.coefficient_reduced_ne_zero ?_
  cases hfound : (List.range 22).findSome? fun (step : Nat) => x.nearestOn? (x.topGrid - step) with
  | none =>
    have hpow : ∀ b e : Nat, 0 < b → Nat.pow b e ≠ 0 := fun b e hb => (Nat.pow_pos hb).ne'
    simp only [Option.getD_none, exactly]
    split
    · exact Nat.mul_ne_zero hx (hpow 2 _ (by decide))
    · exact Nat.mul_ne_zero hx (hpow 5 _ (by decide))
  | some d =>
    obtain ⟨step, -, hd⟩ := List.exists_of_findSome?_eq_some hfound
    exact coefficient_ne_zero_of_readsBack hx (readsBack_of_nearestOn? hd)

end Binary64

namespace Value

/-- **The texts of floating point numbers are exact.**

* Any number but zero, with any sign, is written as JSON writes it, in exactly one reading, which
  has its value.  It has no exponent just when the number is at least `10 ^ -5` and less than
  `10 ^ 16`; a fraction that ends in a zero is the `.0` of an integer; and there is a point or an
  `e`.
* A finite number other than zero is written as its shortest decimal, which is not zero either.
* So two such numbers with the same text have the same sign and the same shortest decimal value. -/
theorem float_texts_are_exact :
    (∀ (isNegative : Bool) (d : Decimal), d.coefficient ≠ 0 →
      ∃ numeral : Numeral,
        (∀ other : Numeral,
          other.text = outputLayout.signed isNegative d ↔ other = numeral) ∧
        numeral.value = (if isNegative then -1 else 1) * d.value ∧
        (numeral.scale = none ↔ 10 ^ (-5 : Int) ≤ d.value ∧ d.value < 10 ^ (16 : Int)) ∧
        (∀ behind, numeral.fraction = some behind → behind.chars.getLast? = some '0' →
          behind.chars = ['0'] ∧ numeral.scale = none ∧ ∃ n : Nat, d.value = n) ∧
        ('.' ∈ outputLayout.signed isNegative d ∨ 'e' ∈ outputLayout.signed isNegative d)) ∧
    (∀ x : Binary64, x.isFinite = true → x.isZero = false →
      x.shortest.coefficient ≠ 0 ∧
        floatText x = String.ofList (outputLayout.signed x.isNegative x.shortest)) ∧
    ∀ x y : Binary64, x.isFinite = true → x.isZero = false → y.isFinite = true →
      y.isZero = false → floatText x = floatText y →
        x.isNegative = y.isNegative ∧ x.shortest.value = y.shortest.value := by
  have hsign : outputLayout.positiveSign = [] ∨ outputLayout.positiveSign = ['+'] := .inl rfl
  have hfloat : ∀ x : Binary64, x.isFinite = true → x.isZero = false →
      floatText x = String.ofList (outputLayout.signed x.isNegative x.shortest) := by
    intro x hf hz
    rw [floatText, if_pos hf, Layout.finite, hz, if_neg Bool.false_ne_true]
  refine ⟨fun isNegative d hd => ?_,
    fun x hf hz => ⟨Binary64.coefficient_shortest_ne_zero hz, hfloat x hf hz⟩, ?_⟩
  · obtain ⟨numeral, htext, hvalue, hscale, hfraction, hmark⟩ :=
      Layout.exists_numeral hsign isNegative hd
    refine ⟨numeral, fun other => ?_, hvalue, hscale, hfraction, htext ▸ hmark⟩
    rw [← htext]
    exact text_injective.eq_iff
  · intro x y hfx hzx hfy hzy h
    rw [hfloat x hfx hzx, hfloat y hfy hzy] at h
    exact Layout.signed_inj hsign (Binary64.coefficient_shortest_ne_zero hzx)
      (Binary64.coefficient_shortest_ne_zero hzy) (String.ofList_injective h)

/-- Zeros at the end of the coefficient are not written, and a number is not written as its
negative. -/
theorem float_texts_are_exact_of_trailing_zeros :
    (∃ numeral : Numeral, numeral.text = "-0.00001".toList ∧ numeral.scale = none ∧
      numeral.value = -(1 / 100000)) ∧
    (⟨0x3FF8000000000000⟩ : Binary64).isFinite = true ∧
    (⟨0x3FF8000000000000⟩ : Binary64).shortest.coefficient ≠ 0 ∧
    floatText ⟨0x3FF8000000000000⟩ ≠ floatText ⟨0xBFF8000000000000⟩ := by
  obtain ⟨hexact, hfloat, hsame⟩ := float_texts_are_exact
  obtain ⟨numeral, htext, hvalue, hscale, -⟩ := hexact true ⟨100, -7⟩ (by decide)
  have hnumber : Decimal.value ⟨100, -7⟩ = 1 / 100000 := by
    norm_num [Decimal.value, zpow_neg]
  have hfinite : (⟨0x3FF8000000000000⟩ : Binary64).isFinite = true := by decide
  have hnonzero : (⟨0x3FF8000000000000⟩ : Binary64).isZero = false := by decide
  have hreduced : Decimal.reduced ⟨100, -7⟩ = ⟨1, -5⟩ := by
    rw [Decimal.reduced, Decimal.reduced, Decimal.reduced]
    rfl
  have hwritten : outputLayout.signed true ⟨100, -7⟩ = "-0.00001".toList := by
    rw [Layout.signed, Layout.positive, hreduced]
    rfl
  refine ⟨⟨numeral, ?_, ?_, ?_⟩, hfinite, (hfloat _ hfinite hnonzero).1, fun h => ?_⟩
  · rw [(htext numeral).2 rfl, hwritten]
  · rw [hscale, hnumber]
    norm_num
  · rw [hvalue, hnumber]
    norm_num
  · exact absurd (hsame _ _ hfinite hnonzero (by decide) (by decide) h).1 (by decide)

end Value

end TextTemplate
