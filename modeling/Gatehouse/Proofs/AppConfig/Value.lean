import Gatehouse.AppConfig
import Gatehouse.Proofs.Json.Numeral
import Mathlib.Data.List.TakeWhile

/-! # Values told by their texts

A text is a boolean if it is one of two words, a number if it belongs to the grammar of plain decimal
numbers, and otherwise stays what it is. The texts of floating-point numbers are another grammar, with
signs, exponents and names; it takes every plain number, so that none of these stays text. -/

namespace Gatehouse

open Json (IsDigits isDigits_cons ne_of_isDigit)

theorem Decimal.areDigits_iff {cs : List Char} : areDigits cs = true ↔ IsDigits cs := by
  simp [areDigits, IsDigits]

namespace AppConfig

/-- A number without sign and exponent: its digits, or its digits before a point and those behind it.
-/
inductive Unsigned : List Char → (whole fraction : List Char) → Prop where
  | whole {ds : List Char} (digits : IsDigits ds) : Unsigned ds ds []
  | point {ds es : List Char} (digits : IsDigits ds) (behind : IsDigits es) :
    Unsigned (ds ++ '.' :: es) ds es

/-- Such a number, after one `-` or without it. -/
inductive Plain : List Char → (whole fraction : List Char) → Prop where
  | positive {cs whole fraction : List Char} (unsigned : Unsigned cs whole fraction) :
    Plain cs whole fraction
  | negative {cs whole fraction : List Char} (unsigned : Unsigned cs whole fraction) :
    Plain ('-' :: cs) whole fraction

def IsPlain (cs : List Char) : Prop := ∃ whole fraction, Plain cs whole fraction

variable {cs whole fraction : List Char}

/-! ## The recogniser -/

theorem takeWhile_digits {ds rest : List Char} (digits : ∀ c ∈ ds, c.isDigit = true)
    (stops : ∀ c ∈ rest.head?, c.isDigit = false) :
    (ds ++ rest).takeWhile Char.isDigit = ds ∧ (ds ++ rest).dropWhile Char.isDigit = rest := by
  rw [List.takeWhile_append_of_pos digits, List.dropWhile_append_of_pos digits]
  cases rest with
  | nil => simp
  | cons c rest => simp [stops c rfl]

theorem Unsigned.takeWhile (unsigned : Unsigned cs whole fraction) :
    cs.takeWhile Char.isDigit = whole := by
  cases unsigned with
  | whole digits => exact List.takeWhile_eq_self_iff.mpr digits.2
  | point digits behind => exact (takeWhile_digits digits.2 (by simp)).1

theorem Unsigned.dropWhile (unsigned : Unsigned cs whole fraction) :
    cs.dropWhile Char.isDigit = if fraction = [] then [] else '.' :: fraction := by
  cases unsigned with
  | whole digits => exact List.dropWhile_eq_nil_iff.mpr digits.2
  | point digits behind =>
      rw [if_neg behind.1]
      exact (takeWhile_digits digits.2 (by simp)).2

theorem isUnsignedPlain_iff :
    isUnsignedPlain cs = true ↔ ∃ whole fraction, Unsigned cs whole fraction := by
  constructor
  · intro taken
    have split := List.takeWhile_append_dropWhile (p := Char.isDigit) (l := cs)
    rw [isUnsignedPlain, Bool.and_eq_true, Decimal.areDigits_iff] at taken
    obtain ⟨digits, rest⟩ := taken
    split at rest
    · next nothing =>
      rw [nothing, List.append_nil] at split
      rw [split] at digits
      exact ⟨_, _, .whole digits⟩
    · next behind =>
      rw [behind] at split
      rw [← split]
      exact ⟨_, _, .point digits (Decimal.areDigits_iff.mp rest)⟩
    · cases rest
  · rintro ⟨whole, fraction, unsigned⟩
    rw [isUnsignedPlain, unsigned.takeWhile, unsigned.dropWhile]
    cases unsigned with
    | whole digits => simpa using Decimal.areDigits_iff.mpr digits
    | point digits behind =>
        simpa [behind.1] using ⟨Decimal.areDigits_iff.mpr digits, Decimal.areDigits_iff.mpr behind⟩

theorem Unsigned.head (unsigned : Unsigned cs whole fraction) :
    ∃ d ds, cs = d :: ds ∧ d.isDigit = true := by
  cases unsigned with
  | whole digits =>
      cases cs with
      | nil => exact absurd rfl digits.1
      | cons d ds => exact ⟨d, ds, rfl, (isDigits_cons.mp digits).1⟩
  | point digits behind =>
      cases whole with
      | nil => exact absurd rfl digits.1
      | cons d ds => exact ⟨d, _, rfl, (isDigits_cons.mp digits).1⟩

theorem isPlain_iff : isPlain cs = true ↔ IsPlain cs := by
  unfold isPlain
  split
  · next cs =>
    rw [isUnsignedPlain_iff]
    constructor
    · rintro ⟨whole, fraction, unsigned⟩
      exact ⟨whole, fraction, .negative unsigned⟩
    · rintro ⟨whole, fraction, plain⟩
      cases plain with
      | positive unsigned =>
          obtain ⟨d, ds, split, digit⟩ := unsigned.head
          obtain ⟨rfl, -⟩ := List.cons.inj split
          cases digit
      | negative unsigned => exact ⟨whole, fraction, unsigned⟩
  · next noSign =>
    rw [isUnsignedPlain_iff]
    constructor
    · rintro ⟨whole, fraction, unsigned⟩
      exact ⟨whole, fraction, .positive unsigned⟩
    · rintro ⟨whole, fraction, plain⟩
      cases plain with
      | positive unsigned => exact ⟨whole, fraction, unsigned⟩
      | negative unsigned => exact absurd rfl (noSign _)

/-! ## Floating-point numbers -/

theorem ofText?_of_unsigned (unsigned : Unsigned cs whole fraction) :
    Decimal.Literal.ofText? cs =
      some ⟨Nat.ofDigitChars 10 (whole ++ fraction) 0, -(fraction.length : Int)⟩ := by
  have behind : Decimal.Literal.takeFraction (cs.dropWhile Char.isDigit) = (fraction, []) := by
    rw [unsigned.dropWhile]
    cases unsigned with
    | whole => rfl
    | point digits behind =>
        rw [if_neg behind.1, Decimal.Literal.takeFraction,
          List.takeWhile_eq_self_iff.mpr behind.2, List.dropWhile_eq_nil_iff.mpr behind.2]
  have nonempty : whole ≠ [] := by
    cases unsigned with
    | whole digits => exact digits.1
    | point digits => exact digits.1
  simp [Decimal.Literal.ofText?, unsigned.takeWhile, behind, nonempty, Decimal.exponent?]

theorem toLower_of_isDigit {d : Char} (digit : d.isDigit = true) : d.toLower = d := by
  refine dif_neg ?_
  rintro ⟨capital, -⟩
  simp only [Char.isDigit, Bool.and_eq_true, decide_eq_true_eq] at digit
  exact absurd (UInt32.le_trans capital digit.2) (by decide)

/-- No plain number is read as a name: it begins with a digit, and names do not. -/
theorem magnitude?_of_unsigned (unsigned : Unsigned cs whole fraction) :
    Decimal.Double.magnitude? cs =
      (Decimal.Literal.ofText? cs).map Decimal.Literal.magnitude := by
  obtain ⟨d, ds, rfl, digit⟩ := unsigned.head
  have other (name : String) (letter : name.toList.head?.any Char.isDigit = false) :
      String.ofList ((d :: ds).map Char.toLower) ≠ name := by
    rintro rfl
    simp [toLower_of_isDigit digit, digit] at letter
  have notInf := other "inf" (by decide)
  have notInfinity := other "infinity" (by decide)
  have notNan := other "nan" (by decide)
  simp only [Decimal.Double.magnitude?, notInf, notInfinity, notNan, or_self, if_false]

def magnitudeOf (whole fraction : List Char) : Nat :=
  Decimal.magnitudeBits (Nat.ofDigitChars 10 (whole ++ fraction) 0)
    (Decimal.tenPow fraction.length)

theorem magnitude?_eq (unsigned : Unsigned cs whole fraction) :
    Decimal.Double.magnitude? cs = some (magnitudeOf whole fraction) := by
  rw [magnitude?_of_unsigned unsigned, ofText?_of_unsigned unsigned]
  simp [Decimal.Literal.magnitude, magnitudeOf, Decimal.tenPow]

theorem Plain.ofText? (plain : Plain cs whole fraction) :
    ∃ negative, Decimal.Double.ofText? cs =
      some (.ofMagnitude negative (magnitudeOf whole fraction)) := by
  cases plain with
  | positive unsigned =>
      obtain ⟨d, ds, rfl, digit⟩ := unsigned.head
      have noSign : Decimal.takeSign (d :: ds) = (false, d :: ds) := by
        have notMinus : d ≠ '-' := ne_of_isDigit digit rfl
        have notPlus : d ≠ '+' := ne_of_isDigit digit rfl
        simp [Decimal.takeSign, notMinus, notPlus]
      refine ⟨false, ?_⟩
      simp [Decimal.Double.ofText?, noSign, magnitude?_eq unsigned]
  | negative unsigned =>
      refine ⟨true, ?_⟩
      simp [Decimal.Double.ofText?, Decimal.takeSign, magnitude?_eq unsigned]

/-! ## Inference -/

namespace Value

variable {raw : String}

theorem not_isPlain_of_word (word : raw = "true" ∨ raw = "false") : ¬ IsPlain raw.toList := by
  rw [← isPlain_iff]
  rcases word with rfl | rfl <;> decide

theorem infer_of_plain {x : Decimal.Double} (plain : IsPlain raw.toList)
    (read : Decimal.Double.ofText? raw.toList = some x) : infer raw = .number x := by
  have notTrue : raw ≠ "true" := fun word => not_isPlain_of_word (.inl word) plain
  have notFalse : raw ≠ "false" := fun word => not_isPlain_of_word (.inr word) plain
  rw [infer, if_neg notTrue, if_neg notFalse, if_pos (isPlain_iff.mpr plain), read]

theorem infer_of_not_plain (notTrue : raw ≠ "true") (notFalse : raw ≠ "false")
    (notPlain : ¬ IsPlain raw.toList) : infer raw = .text raw := by
  rw [infer, if_neg notTrue, if_neg notFalse, if_neg (mt isPlain_iff.mp notPlain)]

theorem exists_ofText?_of_plain (plain : IsPlain raw.toList) :
    ∃ x, Decimal.Double.ofText? raw.toList = some x := by
  obtain ⟨whole, fraction, spelled⟩ := plain
  obtain ⟨negative, read⟩ := spelled.ofText?
  exact ⟨_, read⟩

/-- The ways a text is told. -/
inductive Told (raw : String) : Value → Prop where
  | bool {b : Bool} (word : raw = if b then "true" else "false") : Told raw (.bool b)
  | number {x : Decimal.Double} (plain : IsPlain raw.toList)
    (read : Decimal.Double.ofText? raw.toList = some x) : Told raw (.number x)
  | text (notTrue : raw ≠ "true") (notFalse : raw ≠ "false")
    (notPlain : ¬ IsPlain raw.toList) : Told raw (.text raw)

theorem told_infer (raw : String) : Told raw (infer raw) := by
  by_cases plain : IsPlain raw.toList
  · obtain ⟨x, read⟩ := exists_ofText?_of_plain plain
    rw [infer_of_plain plain read]
    exact .number plain read
  · by_cases isTrue : raw = "true"
    · subst isTrue
      exact .bool rfl
    by_cases isFalse : raw = "false"
    · subst isFalse
      exact .bool rfl
    · rw [infer_of_not_plain isTrue isFalse plain]
      exact .text isTrue isFalse plain

theorem Told.infer_eq {value : Value} (told : Told raw value) : infer raw = value := by
  cases told with
  | @bool b word => cases b <;> subst word <;> rfl
  | number plain read => exact infer_of_plain plain read
  | text notTrue notFalse notPlain => exact infer_of_not_plain notTrue notFalse notPlain

theorem infer_eq_iff {value : Value} : infer raw = value ↔ Told raw value :=
  ⟨fun same => same ▸ told_infer raw, Told.infer_eq⟩

theorem infer_eq_bool_iff {b : Bool} :
    infer raw = .bool b ↔ raw = if b then "true" else "false" := by
  rw [infer_eq_iff]
  constructor
  · rintro ⟨word⟩
    exact word
  · exact .bool

theorem infer_eq_number_iff {x : Decimal.Double} :
    infer raw = .number x ↔
      IsPlain raw.toList ∧ Decimal.Double.ofText? raw.toList = some x := by
  rw [infer_eq_iff]
  constructor
  · rintro (_ | ⟨plain, read⟩ | _)
    exact ⟨plain, read⟩
  · rintro ⟨plain, read⟩
    exact .number plain read

theorem infer_eq_text_iff {s : String} :
    infer raw = .text s ↔ s = raw ∧ raw ≠ "true" ∧ raw ≠ "false" ∧ ¬ IsPlain raw.toList := by
  rw [infer_eq_iff]
  constructor
  · rintro (_ | _ | ⟨notTrue, notFalse, notPlain⟩)
    exact ⟨rfl, notTrue, notFalse, notPlain⟩
  · rintro ⟨rfl, notTrue, notFalse, notPlain⟩
    exact .text notTrue notFalse notPlain

/-- Every text is told by the grammars alone: just the two words are booleans, just the plain numbers
are numbers, each of which reads as a floating-point number, and all other texts stay as they are. -/
theorem infer_follows_grammar (raw : String) :
    (∀ b, infer raw = .bool b ↔ raw = if b then "true" else "false") ∧
      ((∃ x, infer raw = .number x) ↔ IsPlain raw.toList) ∧
      (IsPlain raw.toList ↔
        ∃ x, Decimal.Double.ofText? raw.toList = some x ∧ infer raw = .number x) ∧
      ∀ s, infer raw = .text s ↔
        s = raw ∧ raw ≠ "true" ∧ raw ≠ "false" ∧ ¬ IsPlain raw.toList := by
  have plain_of_number (x : Decimal.Double) (number : infer raw = .number x) :
      IsPlain raw.toList := (infer_eq_number_iff.mp number).1
  have number_of_plain (plain : IsPlain raw.toList) :
      ∃ x, Decimal.Double.ofText? raw.toList = some x ∧ infer raw = .number x := by
    obtain ⟨x, read⟩ := exists_ofText?_of_plain plain
    exact ⟨x, read, infer_of_plain plain read⟩
  refine ⟨fun b => infer_eq_bool_iff, ⟨?_, ?_⟩, ⟨number_of_plain, ?_⟩, fun s => infer_eq_text_iff⟩
  · rintro ⟨x, number⟩
    exact plain_of_number x number
  · intro plain
    obtain ⟨x, -, number⟩ := number_of_plain plain
    exact ⟨x, number⟩
  · rintro ⟨x, -, number⟩
    exact plain_of_number x number

end Value
end AppConfig
end Gatehouse
