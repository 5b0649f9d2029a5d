import Gatehouse.Decimal
import Gatehouse.Proofs.Json.Numeral
import Mathlib.Data.List.DropRight
import Mathlib.Tactic.Ring

/-! # The texts and the range of finite numbers

Every finite number is written as JSON has it, and every decimal fraction below a bound is read as a
finite number. -/

/-! ## Shortest digits

What could go wrong is a leading zero: the digits that are found for a number never are zero, because
the search begins at its own first decimal place and only goes to finer ones. -/

namespace Gatehouse.Decimal

open Json (IsDigits IsWhole IsFraction IsExponent IsNumeral isDigits_cons)

structure IsLeading (ds : List Char) : Prop where
  nonzero : ∃ d rest, ds = d :: rest ∧ d ≠ '0'
  digits : ∀ c ∈ ds, c.isDigit = true

/-! ### Digits -/

theorem isDigits_zero : IsDigits ['0'] :=
  ⟨List.cons_ne_nil _ _, List.forall_mem_singleton.mpr rfl⟩

theorem isDigits_toDigits (n : Nat) : IsDigits (Nat.toDigits 10 n) :=
  ⟨Nat.toDigits_ne_nil, fun _ mem => Nat.isDigit_of_mem_toDigits (by decide) (by decide) mem⟩

theorem isLeading_toDigits {n : Nat} (positive : 0 < n) : IsLeading (Nat.toDigits 10 n) := by
  obtain ⟨c, cs, digits, starts, -⟩ := Json.NumberPhase.whole_toDigits positive
  refine ⟨⟨c, cs, digits, ?_⟩, (isDigits_toDigits n).2⟩
  rintro rfl
  cases starts

theorem IsLeading.rdropWhile {ds : List Char} (leading : IsLeading ds) :
    IsLeading (ds.rdropWhile (· = '0')) := by
  obtain ⟨⟨d, rest, rfl, nonzero⟩, digits⟩ := leading
  have front := List.rdropWhile_prefix (p := (· = '0')) (l := d :: rest)
  refine ⟨?_, fun c mem => digits c (front.subset mem)⟩
  cases kept : (d :: rest).rdropWhile (· = '0') with
  | nil =>
      have zeros := List.rdropWhile_eq_nil_iff.mp kept d List.mem_cons_self
      exact absurd (of_decide_eq_true zeros) nonzero
  | cons c cs =>
      rw [kept, List.cons_prefix_cons] at front
      obtain ⟨rfl, -⟩ := front
      exact ⟨c, cs, rfl, nonzero⟩

/-- The first of the digits stands for a power of ten that the number reaches. -/
theorem tenPow_length_toDigits_le {n : Nat} (positive : 0 < n) :
    tenPow ((Nat.toDigits 10 n).length - 1) ≤ n := by
  have nonempty : 0 < (Nat.toDigits 10 n).length := List.length_pos_of_ne_nil Nat.toDigits_ne_nil
  by_cases one : (Nat.toDigits 10 n).length - 1 = 0
  · rw [one]
    exact positive
  · refine Nat.le_of_not_lt fun below => ?_
    have shorter := (Nat.length_toDigits_le_iff (by decide) (by omega)).mpr below
    omega

/-! ### The search -/

namespace Neighbourhood

theorem pos_of_nearestMultiple? {n : Neighbourhood} {step q : Nat} (positive : 0 < step)
    (reached : step ≤ n.value) (found : n.nearestMultiple? step = some q) : 0 < q := by
  have quotient : 0 < n.value / step := Nat.div_pos reached positive
  unfold nearestMultiple? at found
  dsimp only at found
  split at found
  · split at found <;> cases found <;> omega
  · cases found
    exact quotient
  · cases found
    exact Nat.succ_pos _
  · cases found

theorem search_digits_pos {n : Neighbourhood} {count place : Nat}
    (reached : twoPow 1076 * tenPow place ≤ n.value) : 0 < (n.search count place).digits := by
  have positive (place : Nat) : 0 < twoPow 1076 * tenPow place :=
    Nat.mul_pos (twoPow_pos 1076) (tenPow_pos place)
  induction count generalizing place with
  | zero => exact Nat.div_pos reached (positive place)
  | succ count ih =>
      rw [search]
      split
      · next found => exact pos_of_nearestMultiple? (positive place) reached found
      · have finer : tenPow (place - 1) ≤ tenPow place :=
          Nat.pow_le_pow_right (by decide) (Nat.sub_le place 1)
        exact ih (Nat.le_trans (Nat.mul_le_mul_left _ finer) reached)

theorem le_value_ofMagnitude {magnitude : Nat} (nonzero : magnitude ≠ 0) :
    twoPow 1076 ≤ (ofMagnitude magnitude).value := by
  have mantissa : 0 < (Double.parts magnitude).1 := by
    unfold Double.parts
    split
    · exact Nat.pos_of_ne_zero nonzero
    · exact Nat.add_pos_left (twoPow_pos 52) _
  have scale : 0 < twoPow (Double.parts magnitude).2 := twoPow_pos _
  calc twoPow 1076 ≤ 4 * tenPow 400 := by decide +kernel
    _ ≤ 4 * (Double.parts magnitude).1 * (twoPow (Double.parts magnitude).2 * tenPow 400) := by
      rw [← Nat.mul_assoc]
      refine Nat.mul_le_mul_right _ ?_
      exact Nat.le_trans (Nat.le_mul_of_pos_right 4 mantissa) (Nat.le_mul_of_pos_right _ scale)

end Neighbourhood

theorem isLeading_shortest {magnitude : Nat} (nonzero : magnitude ≠ 0) :
    IsLeading (shortest magnitude).digits := by
  let n := Neighbourhood.ofMagnitude magnitude
  have unit : 0 < twoPow 1076 := twoPow_pos 1076
  have whole : 0 < n.value / twoPow 1076 :=
    Nat.div_pos (Neighbourhood.le_value_ofMagnitude nonzero) unit
  have reached := (Nat.le_div_iff_mul_le unit).mp (tenPow_length_toDigits_le whole)
  rw [Nat.mul_comm] at reached
  exact (isLeading_toDigits (Neighbourhood.search_digits_pos reached)).rdropWhile

/-! ### The text -/

namespace Scientific

theorem isWhole_singleton {d : Char} (digit : d.isDigit = true) (nonzero : d ≠ '0') :
    IsWhole [d] := .digits nonzero (List.forall_mem_singleton.mpr digit)

theorem isWhole_of_isLeading {ds more : List Char} (leading : IsLeading ds)
    (digits : ∀ c ∈ more, c.isDigit = true) : IsWhole (ds ++ more) := by
  obtain ⟨⟨d, rest, rfl, nonzero⟩, front⟩ := leading
  refine .digits nonzero fun c mem => ?_
  have either : c ∈ (d :: rest) ++ more := mem
  rcases List.mem_append.mp either with here | later
  · exact front c here
  · exact digits c later

theorem isDigit_of_mem_zeros {n : Nat} {c : Char} (mem : c ∈ List.replicate n '0') :
    c.isDigit = true := by
  rw [List.eq_of_mem_replicate mem]
  rfl

section

variable {sign ds : List Char} (signed : sign = [] ∨ sign = ['-'])

include signed

theorem isNumeral_mantissa {mark : List Char} (exponent : IsExponent mark) :
    IsLeading ds → IsNumeral (sign ++ ((match ds with
      | d :: e :: rest => d :: '.' :: e :: rest
      | digits => digits) ++ mark)) := by
  rintro ⟨⟨d, rest, rfl, nonzero⟩, digits⟩
  have first := isWhole_singleton (digits d List.mem_cons_self) nonzero
  cases rest with
  | nil => exact .mk signed first .none exponent
  | cons e rest =>
      have behind : IsDigits (e :: rest) :=
        ⟨List.cons_ne_nil _ _, fun c mem => digits c (List.mem_cons_of_mem d mem)⟩
      exact .mk signed first (.some behind) exponent

variable (leading : IsLeading ds)

include leading

theorem isNumeral_behind_zeros (n : Nat) :
    IsNumeral (sign ++ ('0' :: '.' :: List.replicate n '0' ++ ds)) := by
  have behind : IsDigits (List.replicate n '0' ++ ds) := by
    obtain ⟨⟨d, rest, split, -⟩, digits⟩ := leading
    refine ⟨by simp [split], fun c mem => ?_⟩
    rcases List.mem_append.mp mem with zero | digit
    · exact isDigit_of_mem_zeros zero
    · exact digits c digit
  have numeral := IsNumeral.mk signed .zero (.some behind) .none
  simpa using numeral

theorem isNumeral_before_zeros (n : Nat) :
    IsNumeral (sign ++ (ds ++ List.replicate n '0' ++ ['.', '0'])) := by
  have whole := isWhole_of_isLeading leading fun c mem => isDigit_of_mem_zeros (n := n) mem
  have numeral := IsNumeral.mk signed whole (.some isDigits_zero) .none
  simpa using numeral

theorem isNumeral_around_point {n : Nat} (more : n + 1 < ds.length) :
    IsNumeral (sign ++ (ds.take (n + 1) ++ '.' :: ds.drop (n + 1))) := by
  have front : IsWhole (ds.take (n + 1)) := by
    obtain ⟨⟨d, rest, rfl, nonzero⟩, digits⟩ := leading
    rw [List.take_succ_cons]
    refine .digits nonzero fun c mem => digits c ?_
    rw [← List.take_succ_cons] at mem
    exact List.mem_of_mem_take mem
  have behind : IsDigits (ds.drop (n + 1)) := by
    refine ⟨?_, fun c mem => leading.digits c (List.mem_of_mem_drop mem)⟩
    rw [Ne, List.drop_eq_nil_iff]
    exact Nat.not_le.mpr more
  have numeral := IsNumeral.mk signed front (.some behind) .none
  simpa using numeral

end

theorem isNumeral_text {s : Scientific} {sign : List Char} (signed : sign = [] ∨ sign = ['-'])
    (leading : IsLeading s.digits) : IsNumeral (sign ++ s.text) := by
  unfold text
  split
  · have exponent : IsExponent ('e' :: ([if s.exponent < 0 then '-' else '+'] ++
        Nat.toDigits 10 s.exponent.natAbs)) := by
      refine .some (.inl rfl) ?_ (isDigits_toDigits _)
      split <;> simp
    exact isNumeral_mantissa signed exponent leading
  split
  · exact isNumeral_behind_zeros signed leading _
  dsimp only
  split
  · exact isNumeral_before_zeros signed leading _
  · next more => exact isNumeral_around_point signed leading (Nat.not_le.mp more)

end Scientific

namespace Double

variable {x : Double}

theorem isSome_text?_iff : x.text?.isSome = true ↔ x.isFinite = true := by
  unfold text?
  dsimp only
  split
  · next finite =>
    refine iff_of_true ?_ finite
    split <;> rfl
  · next infinite => exact iff_of_false Bool.false_ne_true infinite

/-- The text of a number is a number of JSON. -/
theorem isNumeral_of_text? {cs : List Char} (text : x.text? = some cs) : IsNumeral cs := by
  have signed : (if x.isNegative then ['-'] else []) = [] ∨
      (if x.isNegative then ['-'] else []) = ['-'] := by
    cases x.isNegative <;> simp
  unfold text? at text
  split at text
  · dsimp only at text
    by_cases zero : x.magnitude = 0
    · rw [if_pos zero] at text
      cases text
      exact .mk signed .zero (.some isDigits_zero) .none
    · rw [if_neg zero] at text
      cases text
      exact Scientific.isNumeral_text signed (isLeading_shortest zero)
  · cases text

end Double
end Gatehouse.Decimal

/-! ## The range

A decimal fraction is rounded to a finite number just if it is below the middle between the largest
finite number and the next power of two. The middle itself is a tie, and the power of two is the even
side of it. -/

namespace Gatehouse.Decimal

/-- From here on numbers are rounded to infinity. The largest finite one is `2 ^ 1024 - 2 ^ 971`. -/
def overflowBound : Nat := twoPow 1024 - twoPow 970

variable {num den : Nat}

/-! ### Rounding -/

/-- At an even bound a tie is rounded up. -/
theorem roundHalfEven_lt_iff {m : Nat} (positive : 0 < den) (even : m % 2 = 0) :
    roundHalfEven num den < m ↔ 2 * num < (2 * m - 1) * den := by
  have split := Nat.div_add_mod num den
  have rest := Nat.mod_lt num positive
  unfold roundHalfEven
  dsimp only
  generalize num / den = q at *
  generalize num % den = r at *
  subst split
  have regions : m ≤ q ∨ q + 1 = m ∨ q + 2 ≤ m := by omega
  rcases regions with below | rfl | above
  · have enough : 2 * (den * m) ≤ 2 * (den * q) :=
      Nat.mul_le_mul_left 2 (Nat.mul_le_mul_left den below)
    have short : (2 * m - 1) * den ≤ 2 * (den * m) := by
      calc (2 * m - 1) * den ≤ 2 * m * den := Nat.mul_le_mul_right den (Nat.sub_le _ _)
        _ = 2 * (den * m) := by ring
    split <;> omega
  · have odd : q % 2 = 1 := by omega
    have bound : (2 * (q + 1) - 1) * den = 2 * (den * q) + den := by
      have twice : 2 * (q + 1) - 1 = 2 * q + 1 := by omega
      rw [twice]
      ring
    split <;> omega
  · have enough : 2 * (den * q) + 2 * den ≤ (2 * m - 1) * den := by
      calc 2 * (den * q) + 2 * den = 2 * (q + 1) * den := by ring
        _ ≤ (2 * m - 1) * den := Nat.mul_le_mul_right den (by omega)
    split <;> omega

theorem le_roundHalfEven (num den : Nat) : num / den ≤ roundHalfEven num den := by
  unfold roundHalfEven
  dsimp only
  split <;> omega

theorem roundHalfEven_le (num den : Nat) : roundHalfEven num den ≤ num / den + 1 := by
  unfold roundHalfEven
  dsimp only
  split <;> omega

/-! ### Bit patterns -/

theorem twoPow_add (m n : Nat) : twoPow (m + n) = twoPow m * twoPow n := Nat.pow_add 2 m n

theorem twoPow_le {m n : Nat} (le : m ≤ n) : twoPow m ≤ twoPow n :=
  Nat.pow_le_pow_right (by decide) le

/-- The exponent that a quotient is rounded at: what is left of it has at most 53 bits, and all of
them where there is an exponent. -/
theorem exponent_bounds (quotient : Nat) :
    quotient < twoPow (quotient.log2 - 52 + 53) ∧
      (0 < quotient.log2 - 52 → twoPow (quotient.log2 - 52 + 52) ≤ quotient) := by
  constructor
  · exact Nat.lt_of_lt_of_le Nat.lt_log2_self (twoPow_le (by omega))
  · intro large
    have nonzero : quotient ≠ 0 := by
      rintro rfl
      exact absurd large (by decide)
    have same : quotient.log2 - 52 + 52 = quotient.log2 := by omega
    rw [same]
    exact Nat.log2_self_le nonzero

/-- The bounds of the 53 bits after they are rounded. -/
theorem rounded_bounds (units den : Nat) :
    let e := (units / den).log2 - 52
    let rounded := roundHalfEven units (den * twoPow e)
    rounded ≤ twoPow 53 ∧ (0 < e → twoPow 52 ≤ rounded) := by
  intro e rounded
  obtain ⟨below, above⟩ := exponent_bounds (units / den)
  have quotient : units / (den * twoPow e) = units / den / twoPow e :=
    (Nat.div_div_eq_div_mul units den (twoPow e)).symm
  constructor
  · have small : units / den / twoPow e < twoPow 53 := by
      rw [Nat.div_lt_iff_lt_mul (twoPow_pos e), ← twoPow_add, Nat.add_comm]
      exact below
    have le := roundHalfEven_le units (den * twoPow e)
    omega
  · intro large
    have enough : twoPow 52 ≤ units / den / twoPow e := by
      rw [Nat.le_div_iff_mul_le (twoPow_pos e), ← twoPow_add, Nat.add_comm]
      exact above large
    have ge := le_roundHalfEven units (den * twoPow e)
    omega

def overflowUnits : Nat := overflowBound * twoPow 1074

theorem units_lt_iff : num * twoPow 1074 < overflowUnits * den ↔ num < overflowBound * den := by
  have scaled : overflowUnits * den = overflowBound * den * twoPow 1074 := by
    rw [overflowUnits]
    ring
  rw [scaled, Nat.mul_lt_mul_right (twoPow_pos 1074)]

/-- Rounding gives a finite number just below the bound. -/
theorem magnitudeBits_lt_iff (positive : 0 < den) :
    magnitudeBits num den < infinityBits ↔ num < overflowBound * den := by
  have infinity : infinityBits = 2047 * twoPow 52 := rfl
  have carry : twoPow 53 = 2 * twoPow 52 := rfl
  have nonzero := twoPow_pos 52
  rw [← units_lt_iff, magnitudeBits]
  generalize num * twoPow 1074 = units
  obtain ⟨below, above⟩ := exponent_bounds (units / den)
  obtain ⟨le, ge⟩ := rounded_bounds units den
  generalize exponent : (units / den).log2 - 52 = e at *
  have finite (bits : Nat) : min infinityBits bits < infinityBits ↔ bits < infinityBits := by
    omega
  rw [finite, infinity]
  have regions : e ≤ 2044 ∨ e = 2045 ∨ 2046 ≤ e := by omega
  rcases regions with small | rfl | large
  · have scaled := Nat.mul_le_mul_right (twoPow 52) small
    have inRange : twoPow (e + 53) ≤ overflowUnits :=
      Nat.le_trans (twoPow_le (by omega : e + 53 ≤ 2097)) (by decide +kernel)
    have within := (Nat.div_lt_iff_lt_mul positive).mp (Nat.lt_of_lt_of_le below inRange)
    exact iff_of_true (by omega) within
  · have even : twoPow 53 % 2 = 0 := by decide +kernel
    have last : roundHalfEven units (den * twoPow 2045) < twoPow 53 ↔ _ :=
      roundHalfEven_lt_iff (Nat.mul_pos positive (twoPow_pos 2045)) even
    have bound : (2 * twoPow 53 - 1) * (den * twoPow 2045) = 2 * (overflowUnits * den) := by
      have middle : (2 * twoPow 53 - 1) * twoPow 2045 = 2 * overflowUnits := by decide +kernel
      rw [Nat.mul_comm den, ← Nat.mul_assoc, middle, Nat.mul_assoc]
    rw [bound] at last
    omega
  · have scaled := Nat.mul_le_mul_right (twoPow 52) large
    have outOfRange : overflowUnits ≤ twoPow (e + 52) :=
      Nat.le_trans (by decide +kernel) (twoPow_le (by omega : 2098 ≤ e + 52))
    have reached := Nat.le_trans outOfRange (above (by omega))
    have past := (Nat.le_div_iff_mul_le positive).mp reached
    have top := ge (by omega)
    exact iff_of_false (by omega) (Nat.not_lt.mpr past)

theorem magnitudeBits_le (num den : Nat) : magnitudeBits num den ≤ infinityBits :=
  Nat.min_le_left _ _

namespace Double

theorem magnitude_ofMagnitude {negative : Bool} {magnitude : Nat}
    (le : magnitude ≤ infinityBits) : (ofMagnitude negative magnitude).magnitude = magnitude := by
  have signBit : twoPow 63 = 9223372036854775808 := rfl
  have infinity : infinityBits = 9218868437227405312 := rfl
  rw [Double.magnitude, ofMagnitude, UInt64.toNat_ofNat', signBit]
  split <;> omega

theorem isFinite_ofMagnitude_iff {negative : Bool} (positive : 0 < den) :
    (ofMagnitude negative (magnitudeBits num den)).isFinite = true ↔
      num < overflowBound * den := by
  rw [isFinite, magnitude_ofMagnitude (magnitudeBits_le num den), decide_eq_true_eq,
    magnitudeBits_lt_iff positive]

end Double
end Gatehouse.Decimal
