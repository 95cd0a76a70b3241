/-! Finite 64-bit binary floating-point numbers, kept as sign, mantissa and exponent,
and rounding to them in exact arithmetic. `ofRatio` rounds a quotient to nearest, a half
to the even mantissa; products and quotients round once. -/

namespace FeedPoller

/-- The number `± mantissa * 2 ^ exponent`. The values built here are canonical: the mantissa
is below `2 ^ 53`, and below `2 ^ 52` only at the least exponent. -/
structure Binary64 where
  negative : Bool
  mantissa : Nat
  exponent : Int
  deriving DecidableEq, Repr

namespace Binary64

/-- The least exponent of a finite number. -/
def minExponent : Int := -1074

/-- The greatest exponent of a finite number. -/
def maxExponent : Int := 971

def zero (negative : Bool) : Binary64 := ⟨negative, 0, minExponent⟩

/-- The quotient to nearest; a half goes to the even neighbour. -/
def roundDiv (num den : Nat) : Nat :=
  let q := num / den
  let twice := 2 * (num % den)
  if twice < den then q else if den < twice then q + 1 else q + q % 2

/-- `num / den` over `2 ^ e`, as a quotient of naturals. -/
def scaled (num den : Nat) (e : Int) : Nat × Nat :=
  if 0 ≤ e then (num, den * Nat.pow 2 e.toNat) else (num * Nat.pow 2 (-e).toNat, den)

/-- The exponent at which the quotient has 53 bits, or the least one. -/
def targetExponent (num den : Nat) : Int :=
  let e := (num.log2 : Int) - den.log2 - 52
  let (n, d) := scaled num den e
  max minExponent (if n / d < 0x10000000000000 then e - 1 else e)

/-- The float nearest to `num / den`; none when that is past the greatest finite one. -/
def ofRatio (negative : Bool) (num den : Nat) : Option Binary64 :=
  if num = 0 then some (zero negative)
  else
    let e := targetExponent num den
    let (n, d) := scaled num den e
    let m := roundDiv n d
    let (m, e) := if m = 0x20000000000000 then (0x10000000000000, e + 1) else (m, e)
    if maxExponent < e then none else some ⟨negative, m, e⟩

def ofNat (n : Nat) : Option Binary64 := ofRatio false n 1

/-- The magnitude as a quotient of naturals. -/
def ratio (x : Binary64) : Nat × Nat :=
  if 0 ≤ x.exponent then (x.mantissa * Nat.pow 2 x.exponent.toNat, 1)
  else (x.mantissa, Nat.pow 2 (-x.exponent).toNat)

def mul (x y : Binary64) : Option Binary64 :=
  let (a, b) := x.ratio
  let (c, d) := y.ratio
  ofRatio (x.negative != y.negative) (a * c) (b * d)

/-- The rounded quotient; `y` is not zero. -/
def div (x y : Binary64) : Option Binary64 :=
  let (a, b) := x.ratio
  let (c, d) := y.ratio
  ofRatio (x.negative != y.negative) (a * d) (b * c)

def isZero (x : Binary64) : Bool := x.mantissa == 0

/-- Numeric equality: the two zeros are equal. -/
def same (x y : Binary64) : Bool := x == y || (x.isZero && y.isZero)

/-- The number of decimal digits. -/
def digitCount (n : Nat) : Nat := (Nat.toDigits 10 n).length

/-- The float nearest to `digits * 10 ^ exponent`; none when that is past the greatest finite
one. Exponents far outside the range are settled by the number of digits alone. -/
def ofDecimal (negative : Bool) (digits : Nat) (exponent : Int) : Option Binary64 :=
  let lead := (digitCount digits : Int) + exponent
  if digits = 0 ∨ lead < -330 then some (zero negative)
  else if 320 < lead then none
  else if 0 ≤ exponent then ofRatio negative (digits * Nat.pow 10 exponent.toNat) 1
  else ofRatio negative digits (Nat.pow 10 (-exponent).toNat)

end Binary64
end FeedPoller
