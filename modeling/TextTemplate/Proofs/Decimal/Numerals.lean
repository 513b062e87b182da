import Mathlib.Algebra.Field.Rat
import Mathlib.Data.List.Basic
import Mathlib.Tactic.FieldSimp

/-!
# Numbers as JSON writes them

A `Numeral` is a number in the notation of JSON, taken apart: a sign, an integer without leading
zeros, a fraction and an exponent, of which the last two may be missing.  It has a text and a value,
and the text is that of no other numeral (`Numeral.text_injective`), so what a text denotes is
settled.
-/

namespace TextTemplate

namespace Numeral

/-- A run of digits, which is not empty. -/
@[ext] structure Digits where
  chars : List Char
  chars_ne_nil : chars ≠ []
  isDigit_of_mem : ∀ c ∈ chars, c.isDigit = true

namespace Digits

/-- The number with these digits. -/
def toNat (digits : Digits) : Nat := Nat.ofDigitChars 10 digits.chars 0

/-- The number with these digits behind the point. -/
def fraction (digits : Digits) : ℚ := digits.toNat / 10 ^ digits.chars.length

/-- The digits of a natural number. -/
def ofNat (n : Nat) : Digits where
  chars := Nat.toDigits 10 n
  chars_ne_nil := Nat.toDigits_ne_nil
  isDigit_of_mem _ := Nat.isDigit_of_mem_toDigits (by decide) (by decide)

@[simp] theorem toNat_ofNat (n : Nat) : (ofNat n).toNat = n := Nat.ofDigitChars_ten_toDigits

/-- A single zero. -/
def zero : Digits where
  chars := ['0']
  chars_ne_nil := List.cons_ne_nil _ _
  isDigit_of_mem c hc := by
    rw [List.mem_singleton.1 hc]
    rfl

@[simp] theorem chars_zero : zero.chars = ['0'] := rfl

theorem isDigit_of_mem_replicate {zeros : Nat} {c : Char} (h : c ∈ List.replicate zeros '0') :
    c.isDigit = true := by
  rw [List.eq_of_mem_replicate h]
  rfl

/-- The digits behind zeros. -/
def padded (zeros : Nat) (digits : Digits) : Digits where
  chars := List.replicate zeros '0' ++ digits.chars
  chars_ne_nil := List.append_ne_nil_of_right_ne_nil _ digits.chars_ne_nil
  isDigit_of_mem c hc :=
    (List.mem_append.1 hc).elim isDigit_of_mem_replicate (digits.isDigit_of_mem c)

@[simp] theorem toNat_padded (zeros : Nat) (digits : Digits) :
    (padded zeros digits).toNat = digits.toNat := by
  simp [toNat, padded, Nat.ofDigitChars_append, Nat.ofDigitChars_replicate_zero]

/-- Digits on both sides of a point. -/
theorem toNat_add_fraction (whole fraction : Digits) :
    whole.toNat + fraction.fraction =
      (Nat.ofDigitChars 10 (whole.chars ++ fraction.chars) 0 : ℚ) / 10 ^ fraction.chars.length := by
  rw [Nat.ofDigitChars_append, Nat.ofDigitChars_eq_ofDigitChars_zero, Digits.fraction, toNat, toNat]
  push_cast
  field_simp

end Digits

/-- An exponent: a letter, a sign or none, and digits. -/
@[ext] structure Scale where
  letter : Char
  sign : List Char
  digits : Digits
  letter_eq : letter = 'e' ∨ letter = 'E'
  sign_eq : sign = [] ∨ sign = ['+'] ∨ sign = ['-']

namespace Scale

/-- The exponent as written. -/
def text (scale : Scale) : List Char := scale.letter :: (scale.sign ++ scale.digits.chars)

/-- The power of ten that it stands for. -/
def exponent (scale : Scale) : Int :=
  if scale.sign = ['-'] then -(scale.digits.toNat : Int) else scale.digits.toNat

end Scale

end Numeral

/-- A number as JSON writes it. -/
@[ext] structure Numeral where
  isNegative : Bool
  whole : Numeral.Digits
  fraction : Option Numeral.Digits
  scale : Option Numeral.Scale
  /-- There is no leading zero, unless the integer is zero. -/
  eq_zero_of_head? : whole.chars.head? = some '0' → whole.chars = ['0']

namespace Numeral

/-- The sign, if there is one. -/
def signText (isNegative : Bool) : List Char := if isNegative then ['-'] else []

/-- What is written behind the integer. -/
def tail (numeral : Numeral) : List Char :=
  numeral.fraction.elim [] (fun digits => '.' :: digits.chars) ++ numeral.scale.elim [] Scale.text

/-- The number as written. -/
def text (numeral : Numeral) : List Char :=
  signText numeral.isNegative ++ (numeral.whole.chars ++ numeral.tail)

/-- The number that is written. -/
def value (numeral : Numeral) : ℚ :=
  (if numeral.isNegative then -1 else 1) *
    ((numeral.whole.toNat + numeral.fraction.elim 0 Digits.fraction) *
      10 ^ numeral.scale.elim 0 Scale.exponent)

/-! ### Texts are unambiguous -/

variable {p : Char → Bool} {front front' rest rest' : List Char} {digits digits' : Digits}
  {scale scale' : Option Scale}

/-- Where characters with a property are followed by one without it, they can be told apart. -/
theorem append_inj_of_head? (hf : ∀ c ∈ front, p c = true) (hf' : ∀ c ∈ front', p c = true)
    (hr : ∀ c, rest.head? = some c → p c = false) (hr' : ∀ c, rest'.head? = some c → p c = false)
    (h : front ++ rest = front' ++ rest') : front = front' ∧ rest = rest' := by
  have htake : ∀ {front rest : List Char}, (∀ c ∈ front, p c = true) →
      (∀ c, rest.head? = some c → p c = false) → (front ++ rest).takeWhile p = front := by
    intro front rest hf hr
    rw [List.takeWhile_append_of_pos hf]
    cases rest with
    | nil => simp
    | cons c rest => simp [hr c rfl]
  obtain rfl : front = front' := by rw [← htake hf hr, h, htake hf' hr']
  exact ⟨rfl, List.append_cancel_left h⟩

theorem Digits.append_inj (hr : ∀ c, rest.head? = some c → c.isDigit = false)
    (hr' : ∀ c, rest'.head? = some c → c.isDigit = false)
    (h : digits.chars ++ rest = digits'.chars ++ rest') : digits = digits' ∧ rest = rest' := by
  obtain ⟨hchars, hrest⟩ :=
    append_inj_of_head? digits.isDigit_of_mem digits'.isDigit_of_mem hr hr' h
  exact ⟨Digits.ext hchars, hrest⟩

/-- Signs in front of digits can be told apart. -/
theorem Digits.sign_append_inj (hf : ∀ c ∈ front, c.isDigit = false)
    (hf' : ∀ c ∈ front', c.isDigit = false)
    (h : front ++ (digits.chars ++ rest) = front' ++ (digits'.chars ++ rest')) :
    front = front' ∧ digits.chars ++ rest = digits'.chars ++ rest' := by
  have hhead : ∀ (digits : Digits) (rest : List Char) (c : Char),
      (digits.chars ++ rest).head? = some c → (!c.isDigit) = false := by
    intro digits rest c hc
    rw [List.head?_append_of_ne_nil _ digits.chars_ne_nil] at hc
    simp [digits.isDigit_of_mem c (List.mem_of_head? hc)]
  exact append_inj_of_head? (p := fun c => !c.isDigit) (by simpa using hf) (by simpa using hf')
    (hhead digits rest) (hhead digits' rest') h

/-- An exponent begins with its letter. -/
theorem head?_scale {c : Char} (h : (scale.elim [] Scale.text).head? = some c) :
    c = 'e' ∨ c = 'E' := by
  cases scale with
  | none => simp at h
  | some scale =>
    obtain rfl : scale.letter = c := Option.some.inj h
    exact scale.letter_eq

theorem isDigit_eq_false_of_head?_scale (scale : Option Scale) (c : Char)
    (h : (scale.elim [] Scale.text).head? = some c) : c.isDigit = false := by
  rcases head?_scale h with rfl | rfl <;> rfl

theorem isDigit_eq_false_of_head?_tail (numeral : Numeral) (c : Char)
    (h : numeral.tail.head? = some c) : c.isDigit = false := by
  unfold tail at h
  cases hf : numeral.fraction with
  | none =>
    rw [hf] at h
    exact isDigit_eq_false_of_head?_scale numeral.scale c h
  | some digits =>
    rw [hf] at h
    obtain rfl : '.' = c := Option.some.inj h
    rfl

theorem Scale.text_injective : Function.Injective Scale.text := by
  intro scale scale' h
  obtain ⟨hletter, hrest⟩ := List.cons.inj h
  have hsign : ∀ scale : Scale, ∀ c ∈ scale.sign, c.isDigit = false := by
    intro scale c hc
    rcases scale.sign_eq with hs | hs | hs <;> simp_all
  rw [← List.append_nil scale.digits.chars, ← List.append_nil scale'.digits.chars] at hrest
  obtain ⟨hsigns, hdigits⟩ := Digits.sign_append_inj (hsign scale) (hsign scale') hrest
  obtain ⟨hdigits, -⟩ := Digits.append_inj (by simp) (by simp) hdigits
  exact Scale.ext hletter hsigns hdigits

theorem scale_inj (h : scale.elim [] Scale.text = scale'.elim [] Scale.text) : scale = scale' := by
  cases scale <;> cases scale'
  · rfl
  · cases h
  · cases h
  · exact congrArg some (Scale.text_injective h)

/-- A fraction begins with a point, and an exponent does not. -/
theorem tail_inj {a b : Numeral} (h : a.tail = b.tail) :
    a.fraction = b.fraction ∧ a.scale = b.scale := by
  have hpoint : ∀ (scale : Option Scale) (rest : List Char),
      scale.elim [] Scale.text ≠ '.' :: rest := by
    intro scale rest h
    have := head?_scale (c := '.') (by rw [h]; rfl)
    simp at this
  unfold tail at h
  cases ha : a.fraction <;> cases hb : b.fraction <;> rw [ha, hb] at h
  · exact ⟨rfl, scale_inj h⟩
  · exact absurd h (hpoint _ _)
  · exact absurd h.symm (hpoint _ _)
  · obtain ⟨hdigits, hscale⟩ := Digits.append_inj (isDigit_eq_false_of_head?_scale _)
      (isDigit_eq_false_of_head?_scale _) (List.cons.inj h).2
    exact ⟨congrArg some hdigits, scale_inj hscale⟩

/-- **No two numerals have the same text.** -/
theorem text_injective : Function.Injective text := by
  intro a b h
  have hsign : ∀ isNegative, ∀ c ∈ signText isNegative, c.isDigit = false := by
    intro isNegative c hc
    cases isNegative <;> simp_all [signText]
  obtain ⟨hsigns, hrest⟩ := Digits.sign_append_inj (hsign _) (hsign _) h
  obtain ⟨hwhole, htail⟩ := Digits.append_inj (isDigit_eq_false_of_head?_tail a)
    (isDigit_eq_false_of_head?_tail b) hrest
  obtain ⟨hfraction, hscale⟩ := tail_inj htail
  have hnegative : a.isNegative = b.isNegative := by
    cases ha : a.isNegative <;> cases hb : b.isNegative <;> simp_all [signText]
  exact Numeral.ext hnegative hwhole hfraction hscale

end Numeral

end TextTemplate
