/-! # Decimal numbers

Whole numbers up to a limit, and binary floating-point numbers of 64 bits with the decimal texts that
are read as them and written for them. All is computed exactly, on natural numbers. -/

/-! ## Bounded unsigned numbers

Decimal digits, optionally after one `+`, whose value does not exceed a limit. A text is read from
left to right and the first fault met is the one reported. -/

namespace Gatehouse.Decimal

def digit? (c : Char) : Option Nat :=
  if '0' ≤ c ∧ c ≤ '9' then some (c.toNat - '0'.toNat) else none

inductive UnsignedFault where
  | empty
  | invalidDigit
  | tooLarge
  deriving DecidableEq, Repr

def UnsignedFault.message : UnsignedFault → String
  | .empty => "cannot parse integer from empty string"
  | .invalidDigit => "invalid digit found in string"
  | .tooLarge => "number too large to fit in target type"

def readDigits (limit : Nat) : Nat → List Char → Except UnsignedFault Nat
  | value, [] => .ok value
  | value, c :: cs =>
    match digit? c with
    | none => .error .invalidDigit
    | some d =>
      if limit < value * 10 + d then .error .tooLarge else readDigits limit (value * 10 + d) cs

def readUnsigned (limit : Nat) : List Char → Except UnsignedFault Nat
  | [] => .error .empty
  | ['+'] => .error .invalidDigit
  | '+' :: cs => readDigits limit 0 cs
  | cs => readDigits limit 0 cs

/-! ## Binary floating-point numbers

A number is its IEEE 754 bit pattern. A decimal fraction is read as the nearest such number, and a
tie goes to the even one.

Counted in units of `2 ^ -1074`, the least positive number, every finite magnitude is
`m * 2 ^ e` with `m < 2 ^ 53`, and `m` is at least `2 ^ 52` unless `e` is zero. Its bit pattern is
then `e * 2 ^ 52 + m`. -/

structure Double where
  bits : UInt64
  deriving DecidableEq, Repr

/-- The quotient rounded to the nearest natural number, a half to the even one. -/
def roundHalfEven (num den : Nat) : Nat :=
  let quotient := num / den
  let rest := num % den
  if 2 * rest < den ∨ (2 * rest = den ∧ quotient % 2 = 0) then quotient else quotient + 1

def twoPow (n : Nat) : Nat := Nat.pow 2 n

def tenPow (n : Nat) : Nat := Nat.pow 10 n

theorem twoPow_pos (n : Nat) : 0 < twoPow n := Nat.pow_pos (by decide)

theorem tenPow_pos (n : Nat) : 0 < tenPow n := Nat.pow_pos (by decide)

def infinityBits : Nat := 0x7FF * twoPow 52

/-- The bit pattern nearest to `num / den`. What rounds beyond the largest finite number becomes
infinite; a carry out of the 53 bits of `m` moves on to the next exponent by itself. -/
def magnitudeBits (num den : Nat) : Nat :=
  let units := num * twoPow 1074
  let e := (units / den).log2 - 52
  min infinityBits (e * twoPow 52 + roundHalfEven units (den * twoPow e))

namespace Double

def ofMagnitude (negative : Bool) (magnitude : Nat) : Double :=
  ⟨.ofNat ((if negative then twoPow 63 else 0) + magnitude)⟩

def isNegative (x : Double) : Bool := twoPow 63 ≤ x.bits.toNat

def magnitude (x : Double) : Nat := x.bits.toNat % twoPow 63

def isFinite (x : Double) : Bool := x.magnitude < infinityBits

/-- `m` and `e` of the magnitude `m * 2 ^ e` units. -/
def parts (magnitude : Nat) : Nat × Nat :=
  if magnitude < twoPow 53 then (magnitude, 0)
  else (twoPow 52 + magnitude % twoPow 52, magnitude / twoPow 52 - 1)

end Double

/-! ## Texts of floating-point numbers

A number is written as digits, perhaps with a point among them, a sign before them and an exponent
behind them. An infinity, and what is no number, are written by their names. The case of letters
makes no difference. -/

def areDigits (cs : List Char) : Bool := !cs.isEmpty && cs.all Char.isDigit

/-- Whether a text begins with `-`, and what follows its sign. -/
def takeSign : List Char → Bool × List Char
  | '-' :: cs => (true, cs)
  | '+' :: cs => (false, cs)
  | cs => (false, cs)

/-- The power of ten that is written behind the digits, if anything is. -/
def exponent? : List Char → Option Int
  | [] => some 0
  | c :: cs =>
    let (negative, digits) := takeSign cs
    if c.toLower = 'e' ∧ areDigits digits then
      let n := Nat.ofDigitChars 10 digits 0
      some (if negative then -(n : Int) else n)
    else none

/-- A decimal number `digits * 10 ^ exponent`. -/
structure Literal where
  digits : Nat
  exponent : Int

namespace Literal

/-- The digits behind a point that a text may begin with, and what follows them. -/
def takeFraction : List Char → List Char × List Char
  | '.' :: cs => (cs.takeWhile Char.isDigit, cs.dropWhile Char.isDigit)
  | cs => ([], cs)

def ofText? (cs : List Char) : Option Literal :=
  let whole := cs.takeWhile Char.isDigit
  let (fraction, rest) := takeFraction (cs.dropWhile Char.isDigit)
  if (whole ++ fraction).isEmpty then none
  else (exponent? rest).map fun e =>
    ⟨Nat.ofDigitChars 10 (whole ++ fraction) 0, e - fraction.length⟩

def magnitude (l : Literal) : Nat :=
  magnitudeBits (l.digits * tenPow l.exponent.toNat) (tenPow (-l.exponent).toNat)

end Literal

namespace Double

def notANumberBits : Nat := infinityBits + twoPow 51

/-- The bit pattern of what is written without a sign. -/
def magnitude? (cs : List Char) : Option Nat :=
  let name := String.ofList (cs.map Char.toLower)
  if name = "inf" ∨ name = "infinity" then some infinityBits
  else if name = "nan" then some notANumberBits
  else (Literal.ofText? cs).map Literal.magnitude

def ofText? (cs : List Char) : Option Double :=
  let (negative, unsigned) := takeSign cs
  (magnitude? unsigned).map (ofMagnitude negative)

end Double

/-! ## Shortest decimal digits

The fewest decimal digits that are read back as the same number and, of the candidates with that
many digits, those nearest to it. Magnitudes are compared exactly: all of them are brought to the
common denominator `2 ^ 1076 * 10 ^ 400`, over which halves and quarters of a unit and every decimal
place in question are whole. -/

/-- The real numbers that are rounded to one double, around its exact value. The bounds belong to
them when the double is even. -/
structure Neighbourhood where
  low : Nat
  value : Nat
  high : Nat
  closed : Bool

def Neighbourhood.contains (n : Neighbourhood) (x : Nat) : Bool :=
  if n.closed then n.low ≤ x && x ≤ n.high else n.low < x && x < n.high

/-- The lower neighbour of the least `m` of an exponent is only half as far away. -/
def Neighbourhood.ofMagnitude (magnitude : Nat) : Neighbourhood :=
  let (m, e) := Double.parts magnitude
  let below := if m = twoPow 52 ∧ e ≠ 0 then 1 else 2
  let scale := twoPow e * tenPow 400
  ⟨(4 * m - below) * scale, 4 * m * scale, (4 * m + 2) * scale, m % 2 = 0⟩

def Neighbourhood.nearestMultiple? (n : Neighbourhood) (step : Nat) : Option Nat :=
  let q := n.value / step
  match n.contains (q * step), n.contains ((q + 1) * step) with
  | true, true =>
    let down := n.value - q * step
    let up := (q + 1) * step - n.value
    if down < up ∨ (down = up ∧ q % 2 = 0) then some q else some (q + 1)
  | true, false => some q
  | false, true => some (q + 1)
  | false, false => none

/-- A decimal number `digits * 10 ^ (place - 400)`. -/
structure Scaled where
  digits : Nat
  place : Nat

/-- Tries finer and finer decimal places, at most `count` of them, the first of which is `place`. -/
def Neighbourhood.search (n : Neighbourhood) : (count place : Nat) → Scaled
  | 0, place => ⟨n.value / (twoPow 1076 * tenPow place), place⟩
  | count + 1, place =>
    match n.nearestMultiple? (twoPow 1076 * tenPow place) with
    | some q => ⟨q, place⟩
    | none => search n count (place - 1)

/-- The significant digits, the first of them not zero, and the decimal exponent of the first. -/
structure Scientific where
  digits : List Char
  exponent : Int

/-- The digits of a positive finite magnitude. Seventeen always suffice. -/
def shortest (magnitude : Nat) : Scientific :=
  let n := Neighbourhood.ofMagnitude magnitude
  let leading := (Nat.toDigits 10 (n.value / twoPow 1076)).length - 1
  let found := n.search 17 leading
  let digits := Nat.toDigits 10 found.digits
  ⟨(digits.reverse.dropWhile (· = '0')).reverse, (found.place + digits.length : Nat) - 401⟩

/-- Exponents from -5 to 15 are written out, always with a fraction; all others are written with an
exponent that has its sign. -/
def Scientific.text (s : Scientific) : List Char :=
  if s.exponent < -5 ∨ 16 ≤ s.exponent then
    let sign := if s.exponent < 0 then '-' else '+'
    let mantissa := match s.digits with
      | d :: e :: rest => d :: '.' :: e :: rest
      | digits => digits
    mantissa ++ 'e' :: sign :: Nat.toDigits 10 s.exponent.natAbs
  else if s.exponent < 0 then
    '0' :: '.' :: List.replicate (s.exponent.natAbs - 1) '0' ++ s.digits
  else
    let whole := s.exponent.natAbs + 1
    if s.digits.length ≤ whole then
      s.digits ++ List.replicate (whole - s.digits.length) '0' ++ ['.', '0']
    else s.digits.take whole ++ '.' :: s.digits.drop whole

/-- The text of a finite number; an infinity has none. -/
def Double.text? (x : Double) : Option (List Char) :=
  if x.isFinite then
    let sign := if x.isNegative then ['-'] else []
    if x.magnitude = 0 then some (sign ++ ['0', '.', '0'])
    else some (sign ++ (shortest x.magnitude).text)
  else none

end Gatehouse.Decimal
