import Gatehouse.Proofs.Json.Numeral
import Mathlib.Data.List.TakeWhile
import Mathlib.Data.Nat.Digits.Defs

/-! # Reading bounded numbers

What is read is what the digits stand for by place value, however many there are. Of a text that
spells no number within the limit, the fault that is met first from the left is the one reported.
-/

namespace Gatehouse.Decimal

/-! ## Place values -/

/-- The number that digits stand for: the last one counts ones, the one before it tens. -/
def placeValue (digits : List Char) : Nat :=
  Nat.ofDigits 10 (digits.reverse.map fun c => c.toNat - '0'.toNat)

theorem ofDigitChars_eq_placeValue (digits : List Char) :
    Nat.ofDigitChars 10 digits 0 = placeValue digits := by
  induction digits with
  | nil => rfl
  | cons c digits ih =>
      have highest : placeValue (c :: digits) =
          placeValue digits + 10 ^ digits.length * (c.toNat - '0'.toNat) := by
        simp [placeValue, Nat.ofDigits_append]
      rw [highest, ← ih, Nat.ofDigitChars_cons, Nat.ofDigitChars_eq_ofDigitChars_zero, Nat.mul_zero,
        Nat.zero_add, Nat.add_comm]

theorem le_ofDigitChars (value : Nat) (digits : List Char) :
    value ≤ Nat.ofDigitChars 10 digits value := by
  rw [Nat.ofDigitChars_eq_ofDigitChars_zero]
  have positive : 0 < 10 ^ digits.length := Nat.pow_pos (by decide)
  exact Nat.le_trans (Nat.le_mul_of_pos_left value positive) (Nat.le_add_right _ _)

theorem placeValue_le_append (front digits : List Char) :
    placeValue front ≤ placeValue (front ++ digits) := by
  rw [← ofDigitChars_eq_placeValue, ← ofDigitChars_eq_placeValue, Nat.ofDigitChars_append]
  exact le_ofDigitChars _ digits

/-! ## Digits -/

theorem digit?_of_not_isDigit {c : Char} (other : c.isDigit = false) : digit? c = none := by
  rw [digit?, if_neg]
  simpa [Char.isDigit, Char.le_def] using other

theorem readDigits_eq {limit value : Nat} (within : value ≤ limit) (cs : List Char) :
    readDigits limit value cs =
      let digits := cs.takeWhile Char.isDigit
      if limit < Nat.ofDigitChars 10 digits value then .error .tooLarge
      else if digits = cs then .ok (Nat.ofDigitChars 10 digits value)
      else .error .invalidDigit := by
  induction cs generalizing value with
  | nil => simp [readDigits, Nat.not_lt.mpr within]
  | cons c cs ih =>
      cases digit : c.isDigit with
      | false =>
          simp [readDigits, digit?_of_not_isDigit digit, digit, Nat.not_lt.mpr within]
      | true =>
          have next : 10 * value + (c.toNat - '0'.toNat) = value * 10 + (c.toNat - '0'.toNat) := by
            rw [Nat.mul_comm]
          simp only [readDigits, digit?_of_isDigit digit, List.takeWhile_cons_of_pos digit,
            Nat.ofDigitChars_cons, next, List.cons.injEq, true_and]
          split
          · next past =>
            have beyond := Nat.lt_of_lt_of_le past (le_ofDigitChars _ (cs.takeWhile Char.isDigit))
            rw [if_pos beyond]
          · next kept => exact ih (Nat.le_of_not_lt kept)

/-! ## Texts -/

def afterPlus : List Char → List Char
  | '+' :: cs => cs
  | cs => cs

/-- Digits, of which there is at least one, after one `+` or without it. -/
def Spells (text : List Char) (n : Nat) : Prop :=
  ∃ digits, (text = digits ∨ text = '+' :: digits) ∧ digits ≠ [] ∧
    (∀ c ∈ digits, c.isDigit = true) ∧ placeValue digits = n

inductive Misspells (limit : Nat) : List Char → UnsignedFault → Prop where
  | empty : Misspells limit [] .empty
  | onlyPlus : Misspells limit ['+'] .invalidDigit
  | invalidDigit {text digits rest : List Char} {c : Char}
    (split : afterPlus text = digits ++ c :: rest) (before : ∀ d ∈ digits, d.isDigit = true)
    (within : placeValue digits ≤ limit) (other : c.isDigit = false) :
    Misspells limit text .invalidDigit
  | tooLarge {text digits rest : List Char} (split : afterPlus text = digits ++ rest)
    (before : ∀ d ∈ digits, d.isDigit = true) (beyond : limit < placeValue digits) :
    Misspells limit text .tooLarge

theorem afterPlus_of_digits {digits : List Char} (all : ∀ c ∈ digits, c.isDigit = true) :
    afterPlus digits = digits := by
  unfold afterPlus
  split
  · next cs => exact absurd (all '+' List.mem_cons_self) (by decide)
  · rfl

theorem spells_iff {text : List Char} {n : Nat} :
    Spells text n ↔ afterPlus text ≠ [] ∧ (∀ c ∈ afterPlus text, c.isDigit = true) ∧
      placeValue (afterPlus text) = n := by
  constructor
  · rintro ⟨digits, rfl | rfl, nonempty, all, value⟩
    · rw [afterPlus_of_digits all]
      exact ⟨nonempty, all, value⟩
    · exact ⟨nonempty, all, value⟩
  · rintro ⟨nonempty, all, value⟩
    refine ⟨afterPlus text, ?_, nonempty, all, value⟩
    unfold afterPlus
    split
    · exact .inr rfl
    · exact .inl rfl

theorem readUnsigned_of_afterPlus {text : List Char} (nonempty : afterPlus text ≠ [])
    (limit : Nat) : readUnsigned limit text = readDigits limit 0 (afterPlus text) := by
  unfold readUnsigned
  split
  · exact absurd rfl nonempty
  · exact absurd rfl nonempty
  · rfl
  · next noPlus => rw [afterPlus]; exact noPlus

theorem readUnsigned_eq {text : List Char} (nonempty : afterPlus text ≠ []) (limit : Nat) :
    readUnsigned limit text =
      let digits := (afterPlus text).takeWhile Char.isDigit
      if limit < placeValue digits then .error .tooLarge
      else if digits = afterPlus text then .ok (placeValue digits)
      else .error .invalidDigit := by
  rw [readUnsigned_of_afterPlus nonempty, readDigits_eq (Nat.zero_le limit)]
  simp only [ofDigitChars_eq_placeValue]

theorem afterPlus_eq_nil {text : List Char} (nothing : afterPlus text = []) :
    text = [] ∨ text = ['+'] := by
  unfold afterPlus at nothing
  split at nothing
  · exact .inr (congrArg ('+' :: ·) nothing)
  · exact .inl nothing

/-- A number is read just from the texts that spell it, if it does not exceed the limit. -/
theorem readUnsigned_eq_ok_iff {limit n : Nat} {text : List Char} :
    readUnsigned limit text = .ok n ↔ Spells text n ∧ n ≤ limit := by
  rw [spells_iff]
  by_cases nothing : afterPlus text = []
  · have fails : readUnsigned limit text ≠ .ok n := by
      rcases afterPlus_eq_nil nothing with rfl | rfl <;> exact nofun
    simp [nothing, fails]
  · rw [readUnsigned_eq nothing]
    by_cases all : (afterPlus text).takeWhile Char.isDigit = afterPlus text
    · have digits := List.takeWhile_eq_self_iff.mp all
      simp only [all, if_true]
      split
      · next beyond =>
        refine ⟨nofun, ?_⟩
        rintro ⟨⟨-, -, rfl⟩, within⟩
        exact absurd within (Nat.not_le_of_lt beyond)
      · next within =>
        rw [Except.ok.injEq]
        constructor
        · rintro rfl
          exact ⟨⟨nothing, digits, rfl⟩, Nat.le_of_not_lt within⟩
        · rintro ⟨⟨-, -, value⟩, -⟩
          exact value
    · have other : ¬ ∀ c ∈ afterPlus text, c.isDigit = true :=
        fun digits => all (List.takeWhile_eq_self_iff.mpr digits)
      simp only [all, if_false, other, false_and, and_false, iff_false]
      split <;> exact nofun

theorem misspells_of_error {limit : Nat} {text : List Char} {fault : UnsignedFault}
    (failed : readUnsigned limit text = .error fault) : Misspells limit text fault := by
  by_cases nothing : afterPlus text = []
  · rcases afterPlus_eq_nil nothing with rfl | rfl <;> cases failed
    · exact .empty
    · exact .onlyPlus
  · have front : ∀ d ∈ (afterPlus text).takeWhile Char.isDigit, d.isDigit = true :=
      fun _ mem => List.mem_takeWhile_imp mem
    have split := (List.takeWhile_append_dropWhile (p := Char.isDigit) (l := afterPlus text)).symm
    simp only [readUnsigned_eq nothing] at failed
    split at failed
    · next beyond =>
      cases failed
      exact .tooLarge split front beyond
    · next within =>
      split at failed
      · cases failed
      · next more =>
        cases failed
        cases rest : (afterPlus text).dropWhile Char.isDigit with
        | nil =>
            rw [rest, List.append_nil] at split
            exact absurd split.symm more
        | cons c rest' =>
            have other := List.head?_dropWhile_not Char.isDigit (afterPlus text)
            rw [rest] at split other
            exact .invalidDigit split front (Nat.le_of_not_lt within) other

theorem error_of_misspells {limit : Nat} {text : List Char} {fault : UnsignedFault}
    (wrong : Misspells limit text fault) : readUnsigned limit text = .error fault := by
  cases wrong with
  | empty => rfl
  | onlyPlus => rfl
  | @invalidDigit _ digits rest c split before within other =>
      have nonempty : afterPlus text ≠ [] := by simp [split]
      have front : (afterPlus text).takeWhile Char.isDigit = digits := by
        rw [split, List.takeWhile_append_of_pos before,
          List.takeWhile_cons_of_neg (by simp [other]), List.append_nil]
      have shorter : digits ≠ afterPlus text := by simp [split]
      simp only [readUnsigned_eq nonempty, front]
      rw [if_neg (Nat.not_lt.mpr within), if_neg shorter]
  | @tooLarge _ digits rest split before beyond =>
      have nonempty : afterPlus text ≠ [] := by
        rintro nothing
        rw [nothing] at split
        obtain ⟨rfl, -⟩ := List.append_eq_nil_iff.mp split.symm
        exact absurd beyond (Nat.not_lt_zero limit)
      have front : (afterPlus text).takeWhile Char.isDigit =
          digits ++ rest.takeWhile Char.isDigit := by
        rw [split, List.takeWhile_append_of_pos before]
      have grown := placeValue_le_append digits (rest.takeWhile Char.isDigit)
      have past := Nat.lt_of_lt_of_le beyond grown
      simp only [readUnsigned_eq nonempty, front]
      rw [if_pos past]

/-- The fault that is reported is the first one met from the left. -/
theorem readUnsigned_eq_error_iff {limit : Nat} {text : List Char} {fault : UnsignedFault} :
    readUnsigned limit text = .error fault ↔ Misspells limit text fault :=
  ⟨misspells_of_error, error_of_misspells⟩

end Gatehouse.Decimal
