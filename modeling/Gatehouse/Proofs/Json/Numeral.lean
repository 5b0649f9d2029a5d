import Gatehouse.Json

/-! # The grammar of numbers

A number of RFC 8259 has a whole part, and may have a sign before it and a fraction and an exponent
behind it. The integers among them are read back as they were. -/

namespace Gatehouse

/-! ## Spelled integers -/

theorem Decimal.digit?_of_isDigit {c : Char} (digit : c.isDigit = true) :
    digit? c = some (c.toNat - '0'.toNat) := by
  rw [digit?, if_pos (by simpa [Char.isDigit, Char.le_def] using digit)]

namespace Json

/-! ### Digits -/

theorem readNatural_of_digits {cs : List Char} (digits : ∀ c ∈ cs, c.isDigit = true)
    (value : Nat) : readNatural value cs = some (Nat.ofDigitChars 10 cs value) := by
  induction cs generalizing value with
  | nil => simp [readNatural]
  | cons c cs ih =>
      have first := Decimal.digit?_of_isDigit (digits c List.mem_cons_self)
      have rest := ih fun d mem => digits d (List.mem_cons_of_mem c mem)
      rw [readNatural, first, Option.bind_some, rest, Nat.ofDigitChars_cons, Nat.mul_comm 10]

theorem readNatural_toDigits (n : Nat) : readNatural 0 (Nat.toDigits 10 n) = some n := by
  have digits : ∀ c ∈ Nat.toDigits 10 n, c.isDigit = true :=
    fun c mem => Nat.isDigit_of_mem_toDigits (by decide) (by decide) mem
  rw [readNatural_of_digits digits, Nat.ofDigitChars_toDigits (by decide) (by decide)]

theorem integer?_of_natural {cs : List Char} (unsigned : cs.head? ≠ some '-') (nonempty : cs ≠ []) :
    integer? cs = (readNatural 0 cs).map Int.ofNat := by
  cases cs with
  | nil => exact absurd rfl nonempty
  | cons c cs =>
      have other : c ≠ '-' := by simpa using unsigned
      simp [integer?, other]

/-- Every integer is read back from its spelling. -/
theorem integer?_spellInt (i : Int) : integer? (spellInt i) = some i := by
  unfold spellInt
  split
  · next negative =>
      have positive : i.natAbs ≠ 0 := by omega
      have value : -(i.natAbs : Int) = i := by omega
      cases digits : Nat.toDigits 10 i.natAbs with
      | nil => exact absurd digits Nat.toDigits_ne_nil
      | cons d ds =>
          have read := readNatural_toDigits i.natAbs
          have signed : integer? ('-' :: d :: ds) =
              (readNatural 0 (d :: ds)).bind fun n => if n = 0 then none else some (-(n : Int)) :=
            rfl
          rw [signed, ← digits, read, Option.bind_some, if_neg positive, value]
  · next natural =>
      have value : (i.natAbs : Int) = i := by omega
      have unsigned : (Nat.toDigits 10 i.natAbs).head? ≠ some '-' := by
        intro head
        have digit := Nat.isDigit_of_mem_toDigits (by decide) (by decide)
          (List.mem_of_head? head)
        exact absurd digit (by decide)
      rw [integer?_of_natural unsigned Nat.toDigits_ne_nil, readNatural_toDigits]
      exact congrArg some value

/-! ### The grammar -/

inductive IsNumber : List Char → Prop where
  | mk {c : Char} {cs : List Char} {first last : NumberPhase}
    (starts : NumberPhase.start c = some first)
    (goes : cs.foldlM NumberPhase.next first = some last)
    (ends : last.isFinal = true) : IsNumber (c :: cs)

namespace NumberPhase

theorem next_whole_of_isDigit {c : Char} (digit : c.isDigit = true) :
    next .whole c = some .whole := by
  simp [next, digit]

theorem next_minus {c : Char} (other : c ≠ '-') : next .minus c = start c := by
  simp [next, start, other]

theorem start_digitChar {n : Nat} (positive : 0 < n) (small : n < 10) :
    start (Nat.digitChar n) = some .whole := by
  have all : ∀ n < 10, 0 < n → start (Nat.digitChar n) = some .whole := by decide
  exact all n small positive

theorem whole_toDigits {n : Nat} (positive : 0 < n) :
    ∃ c cs, Nat.toDigits 10 n = c :: cs ∧ start c = some .whole ∧
      cs.foldlM next .whole = some .whole := by
  induction n using Nat.strongRecOn with
  | ind n ih =>
      by_cases small : n < 10
      · refine ⟨Nat.digitChar n, [], ?_, start_digitChar positive small, rfl⟩
        exact Nat.toDigits_of_lt_base small
      · obtain ⟨c, cs, digits, starts, goes⟩ := ih (n / 10) (by omega) (by omega)
        have last : (Nat.digitChar (n % 10)).isDigit = true := by
          have below : n % 10 < 10 := Nat.mod_lt n (by decide)
          have all : ∀ d < 10, (Nat.digitChar d).isDigit = true := by decide
          exact all (n % 10) below
        refine ⟨c, cs ++ [Nat.digitChar (n % 10)], ?_, starts, ?_⟩
        · rw [Nat.toDigits_of_base_le (by decide) (by omega), digits, List.cons_append]
        · rw [List.foldlM_append, goes]
          simp [next_whole_of_isDigit last]

end NumberPhase

theorem isNumber_spellInt (i : Int) : IsNumber (spellInt i) := by
  unfold spellInt
  split
  · next negative =>
      obtain ⟨c, cs, digits, starts, goes⟩ := NumberPhase.whole_toDigits (n := i.natAbs) (by omega)
      have other : c ≠ '-' := by
        rintro rfl
        cases starts
      have signed : (c :: cs).foldlM NumberPhase.next .minus = some .whole := by
        rw [List.foldlM_cons, NumberPhase.next_minus other, starts]
        exact goes
      have minus : NumberPhase.start '-' = some .minus := rfl
      rw [digits]
      exact .mk minus signed rfl
  · next natural =>
      by_cases zero : i.natAbs = 0
      · have starts : NumberPhase.start '0' = some .zero := rfl
        rw [zero]
        exact .mk starts rfl rfl
      · obtain ⟨c, cs, digits, starts, goes⟩ :=
          NumberPhase.whole_toDigits (n := i.natAbs) (by omega)
        rw [digits]
        exact .mk starts goes rfl

end Json
end Gatehouse

/-! ## All numbers

The automaton takes just the numbers of the grammar: what it takes from each of its phases on is
told from the last phase to the first. -/

namespace Gatehouse.Json

def IsDigits (cs : List Char) : Prop := cs ≠ [] ∧ ∀ d ∈ cs, d.isDigit = true

theorem isDigits_cons {c : Char} {cs : List Char} :
    IsDigits (c :: cs) ↔ c.isDigit = true ∧ ∀ d ∈ cs, d.isDigit = true := by
  simp [IsDigits]

theorem ne_of_isDigit {c d : Char} (digit : c.isDigit = true) (other : d.isDigit = false) :
    c ≠ d := by
  rintro rfl
  rw [digit] at other
  cases other

inductive IsWhole : List Char → Prop where
  | zero : IsWhole ['0']
  | digits {c : Char} {cs : List Char} (nonzero : c ≠ '0')
    (all : ∀ d ∈ c :: cs, d.isDigit = true) : IsWhole (c :: cs)

inductive IsFraction : List Char → Prop where
  | none : IsFraction []
  | some {ds : List Char} (digits : IsDigits ds) : IsFraction ('.' :: ds)

inductive IsExponent : List Char → Prop where
  | none : IsExponent []
  | some {e : Char} {sign ds : List Char} (mark : e = 'e' ∨ e = 'E')
    (signed : sign = [] ∨ sign = ['+'] ∨ sign = ['-']) (digits : IsDigits ds) :
    IsExponent (e :: (sign ++ ds))

/-- A sign may stand in front, but no `+`, and the whole part has no leading zeros. -/
inductive IsNumeral : List Char → Prop where
  | mk {sign whole fraction exponent : List Char} (signed : sign = [] ∨ sign = ['-'])
    (isWhole : IsWhole whole) (isFraction : IsFraction fraction)
    (isExponent : IsExponent exponent) : IsNumeral (sign ++ (whole ++ (fraction ++ exponent)))

namespace NumberPhase

variable {phase : NumberPhase} {c : Char} {cs : List Char}

/-- The number may go on so and end there. -/
def Accepts (phase : NumberPhase) (cs : List Char) : Prop :=
  ∃ last, cs.foldlM next phase = some last ∧ last.isFinal = true

theorem accepts_nil : phase.Accepts [] ↔ phase.isFinal = true := by
  simp [Accepts]

theorem accepts_cons :
    phase.Accepts (c :: cs) ↔ ∃ after, phase.next c = some after ∧ after.Accepts cs := by
  simp only [Accepts, List.foldlM_cons, Option.bind_eq_bind, Option.bind_eq_some_iff]
  constructor
  · rintro ⟨last, ⟨after, next, goes⟩, ends⟩
    exact ⟨after, next, last, goes, ends⟩
  · rintro ⟨after, next, last, goes, ends⟩
    exact ⟨last, ⟨after, next, goes⟩, ends⟩

/-- Any digits, and then something else. -/
theorem digits_then_iff {P Q : List Char → Prop} (nil : P [] ↔ Q [])
    (cons : ∀ c cs, P (c :: cs) ↔ (c.isDigit = true ∧ P cs) ∨ Q (c :: cs)) :
    P cs ↔ ∃ ds rest, cs = ds ++ rest ∧ (∀ d ∈ ds, d.isDigit = true) ∧ Q rest := by
  induction cs with
  | nil => simp [nil, and_assoc]
  | cons c cs ih =>
      rw [cons, ih]
      constructor
      · rintro (⟨digit, ds, rest, rfl, digits, tail⟩ | tail)
        · exact ⟨c :: ds, rest, rfl, List.forall_mem_cons.mpr ⟨digit, digits⟩, tail⟩
        · exact ⟨[], c :: cs, rfl, List.forall_mem_nil _, tail⟩
      · rintro ⟨_ | ⟨d, ds⟩, rest, split, digits, tail⟩
        · subst split
          exact .inr tail
        · obtain ⟨rfl, rfl⟩ := List.cons.inj split
          obtain ⟨digit, digits⟩ := List.forall_mem_cons.mp digits
          exact .inl ⟨digit, ds, rest, rfl, digits, tail⟩

theorem accepts_exponent : Accepts .exponent cs ↔ ∀ d ∈ cs, d.isDigit = true := by
  induction cs with
  | nil => simp [accepts_nil, isFinal]
  | cons c cs ih => by_cases digit : c.isDigit <;> simp [accepts_cons, next, digit, ih]

theorem accepts_exponentSign : Accepts .exponentSign cs ↔ IsDigits cs := by
  cases cs with
  | nil => simp [accepts_nil, isFinal, IsDigits]
  | cons c cs =>
      by_cases digit : c.isDigit <;>
        simp [accepts_cons, next, digit, accepts_exponent, IsDigits]

theorem accepts_exponentMark : Accepts .exponentMark cs ↔ ∃ sign ds, cs = sign ++ ds ∧
    (sign = [] ∨ sign = ['+'] ∨ sign = ['-']) ∧ IsDigits ds := by
  cases cs with
  | nil => simp [accepts_nil, isFinal, IsDigits]
  | cons c cs =>
      rw [accepts_cons]
      constructor
      · rintro ⟨after, next, rest⟩
        rw [NumberPhase.next] at next
        split at next
        · next signed =>
          cases next
          rw [accepts_exponentSign] at rest
          exact ⟨[c], cs, rfl, by simpa using signed, rest⟩
        split at next
        · next digit =>
          cases next
          rw [accepts_exponent] at rest
          exact ⟨[], c :: cs, rfl, .inl rfl, isDigits_cons.mpr ⟨digit, rest⟩⟩
        · cases next
      · rintro ⟨sign, ds, split, signed, digits⟩
        rcases signed with rfl | rfl | rfl
        · subst split
          obtain ⟨digit, rest⟩ := isDigits_cons.mp digits
          have unsigned : ¬ (c = '+' ∨ c = '-') :=
            not_or.mpr ⟨ne_of_isDigit digit rfl, ne_of_isDigit digit rfl⟩
          exact ⟨.exponent, by simp [NumberPhase.next, unsigned, digit], accepts_exponent.mpr rest⟩
        · obtain ⟨rfl, rfl⟩ := List.cons.inj split
          exact ⟨.exponentSign, rfl, accepts_exponentSign.mpr digits⟩
        · obtain ⟨rfl, rfl⟩ := List.cons.inj split
          exact ⟨.exponentSign, rfl, accepts_exponentSign.mpr digits⟩

theorem isExponent_cons :
    IsExponent (c :: cs) ↔ (c = 'e' ∨ c = 'E') ∧ Accepts .exponentMark cs := by
  rw [accepts_exponentMark]
  constructor
  · intro exponent
    cases exponent with
    | some mark signed digits => exact ⟨mark, _, _, rfl, signed, digits⟩
  · rintro ⟨mark, sign, ds, rfl, signed, digits⟩
    exact .some mark signed digits

theorem accepts_fraction : Accepts .fraction cs ↔ ∃ ds rest, cs = ds ++ rest ∧
    (∀ d ∈ ds, d.isDigit = true) ∧ IsExponent rest := by
  refine digits_then_iff ⟨fun _ => .none, fun _ => accepts_nil.mpr rfl⟩ fun c cs => ?_
  rw [accepts_cons, isExponent_cons, next]
  by_cases digit : c.isDigit = true
  · have unmarked : ¬ (c = 'e' ∨ c = 'E') :=
      not_or.mpr ⟨ne_of_isDigit digit rfl, ne_of_isDigit digit rfl⟩
    simp [digit, unmarked]
  · by_cases mark : c = 'e' ∨ c = 'E' <;> simp [digit, mark]

theorem accepts_point : Accepts .point cs ↔ ∃ ds rest, cs = ds ++ rest ∧
    IsDigits ds ∧ IsExponent rest := by
  cases cs with
  | nil => simp [accepts_nil, isFinal, IsDigits]
  | cons c cs =>
      rw [accepts_cons, next]
      constructor
      · rintro ⟨after, next, rest⟩
        split at next
        · next digit =>
          cases next
          obtain ⟨ds, tail, rfl, digits, exponent⟩ := accepts_fraction.mp rest
          exact ⟨c :: ds, tail, rfl, isDigits_cons.mpr ⟨digit, digits⟩, exponent⟩
        · cases next
      · rintro ⟨_ | ⟨d, ds⟩, rest, split, digits, exponent⟩
        · exact absurd rfl digits.1
        · obtain ⟨rfl, rfl⟩ := List.cons.inj split
          obtain ⟨digit, digits⟩ := isDigits_cons.mp digits
          exact ⟨.fraction, if_pos digit, accepts_fraction.mpr ⟨ds, rest, rfl, digits, exponent⟩⟩

theorem accepts_zero : Accepts .zero cs ↔ ∃ fraction exponent, cs = fraction ++ exponent ∧
    IsFraction fraction ∧ IsExponent exponent := by
  constructor
  · intro accepts
    cases cs with
    | nil => exact ⟨[], [], rfl, .none, .none⟩
    | cons c cs =>
        obtain ⟨after, next, rest⟩ := accepts_cons.mp accepts
        rw [NumberPhase.next, next.afterWhole] at next
        split at next
        · next point =>
          cases next
          subst point
          obtain ⟨ds, exponent, rfl, digits, isExponent⟩ := accepts_point.mp rest
          exact ⟨'.' :: ds, exponent, rfl, .some digits, isExponent⟩
        split at next
        · next mark =>
          cases next
          exact ⟨[], c :: cs, rfl, .none, isExponent_cons.mpr ⟨mark, rest⟩⟩
        · cases next
  · rintro ⟨fraction, exponent, rfl, isFraction, isExponent⟩
    cases isFraction with
    | none =>
        cases exponent with
        | nil => exact accepts_nil.mpr rfl
        | cons c cs =>
            obtain ⟨mark, rest⟩ := isExponent_cons.mp isExponent
            have notPoint : c ≠ '.' := by
              rintro rfl
              exact absurd mark (by decide)
            have next : NumberPhase.next .zero c = some .exponentMark := by
              simp [NumberPhase.next, next.afterWhole, notPoint, mark]
            exact accepts_cons.mpr ⟨_, next, rest⟩
    | some digits =>
        exact accepts_cons.mpr ⟨.point, rfl, accepts_point.mpr ⟨_, _, rfl, digits, isExponent⟩⟩

theorem accepts_whole : Accepts .whole cs ↔ ∃ ds rest, cs = ds ++ rest ∧
    (∀ d ∈ ds, d.isDigit = true) ∧ Accepts .zero rest := by
  refine digits_then_iff (by simp [accepts_nil, isFinal]) fun c cs => ?_
  rw [accepts_cons, accepts_cons, next, next]
  by_cases digit : c.isDigit = true
  · have ended : next.afterWhole c = none := by
      have notPoint : c ≠ '.' := ne_of_isDigit digit rfl
      have unmarked : ¬ (c = 'e' ∨ c = 'E') :=
        not_or.mpr ⟨ne_of_isDigit digit rfl, ne_of_isDigit digit rfl⟩
      simp [next.afterWhole, notPoint, unmarked]
    simp [digit, ended]
  · simp [digit]

theorem accepts_minus : Accepts .minus cs ↔ ∃ whole rest, cs = whole ++ rest ∧
    IsWhole whole ∧ Accepts .zero rest := by
  constructor
  · intro accepts
    cases cs with
    | nil => cases accepts_nil.mp accepts
    | cons c cs =>
        obtain ⟨after, next, rest⟩ := accepts_cons.mp accepts
        rw [NumberPhase.next] at next
        split at next
        · next zero =>
          cases next
          subst zero
          exact ⟨['0'], cs, rfl, .zero, rest⟩
        split at next
        · next nonzero digit =>
          cases next
          obtain ⟨ds, others, rfl, digits, tail⟩ := accepts_whole.mp rest
          have all : ∀ d ∈ c :: ds, d.isDigit = true := List.forall_mem_cons.mpr ⟨digit, digits⟩
          exact ⟨c :: ds, others, rfl, .digits nonzero all, tail⟩
        · cases next
  · rintro ⟨whole, rest, rfl, isWhole, tail⟩
    cases isWhole with
    | zero => exact accepts_cons.mpr ⟨.zero, rfl, tail⟩
    | @digits c ds nonzero all =>
        obtain ⟨digit, digits⟩ := List.forall_mem_cons.mp all
        have next : NumberPhase.next .minus c = some .whole := by
          simp [NumberPhase.next, nonzero, digit]
        exact accepts_cons.mpr ⟨_, next, accepts_whole.mpr ⟨ds, rest, rfl, digits, tail⟩⟩

end NumberPhase

open NumberPhase in
/-- The automaton takes the numbers of the grammar. -/
theorem isNumber_iff {cs : List Char} : IsNumber cs ↔ IsNumeral cs := by
  constructor
  · rintro @⟨c, cs, first, last, starts, goes, ends⟩
    have accepts : first.Accepts cs := ⟨last, goes, ends⟩
    by_cases minus : c = '-'
    · subst minus
      cases starts
      obtain ⟨whole, tail, rfl, isWhole, rest⟩ := accepts_minus.mp accepts
      obtain ⟨fraction, exponent, rfl, isFraction, isExponent⟩ := accepts_zero.mp rest
      exact .mk (.inr rfl) isWhole isFraction isExponent
    · rw [← next_minus minus] at starts
      obtain ⟨whole, tail, split, isWhole, rest⟩ :=
        accepts_minus.mp (accepts_cons.mpr ⟨first, starts, accepts⟩)
      obtain ⟨fraction, exponent, rfl, isFraction, isExponent⟩ := accepts_zero.mp rest
      rw [split]
      exact .mk (.inl rfl) isWhole isFraction isExponent
  · rintro @⟨sign, whole, fraction, exponent, signed, isWhole, isFraction, isExponent⟩
    have tail := accepts_zero.mpr ⟨fraction, exponent, rfl, isFraction, isExponent⟩
    have unsigned := accepts_minus.mpr ⟨whole, _, rfl, isWhole, tail⟩
    rcases signed with rfl | rfl
    · cases cs : whole ++ (fraction ++ exponent) with
      | nil =>
          rw [cs] at unsigned
          cases accepts_nil.mp unsigned
      | cons c cs' =>
          rw [cs] at unsigned
          obtain ⟨first, next, last, goes, ends⟩ := accepts_cons.mp unsigned
          have other : c ≠ '-' := by
            rintro rfl
            cases next
          rw [next_minus other] at next
          exact .mk next goes ends
    · obtain ⟨last, goes, ends⟩ := unsigned
      exact .mk rfl goes ends

end Gatehouse.Json
