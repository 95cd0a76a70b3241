import FeedPoller.Binary64.Basic

/-! The shortest decimal text of a float. `shortest` takes the first of the grids of 1, 2, …, 17
significant digits that has a point in the interval of reals rounding to the number, and of
two points on that grid the nearer. -/

namespace FeedPoller.Binary64

/-- The interval of magnitudes that round to a number, in quarters of its last place, and
whether its ends belong to it. -/
structure Interval where
  low : Nat
  mid : Nat
  high : Nat
  closed : Bool

def interval (x : Binary64) : Interval :=
  let low :=
    if x.mantissa = 0x10000000000000 ∧ minExponent < x.exponent then 4 * x.mantissa - 1
    else 4 * x.mantissa - 2
  ⟨low, 4 * x.mantissa, 4 * x.mantissa + 2, x.mantissa % 2 == 0⟩

/-- Two naturals with the quotient `n * 2 ^ e2 / 10 ^ e10`. -/
def overPower (n : Nat) (e2 e10 : Int) : Nat × Nat :=
  let up := if 0 ≤ e2 then n * Nat.pow 2 e2.toNat else n
  let down := if 0 ≤ e2 then 1 else Nat.pow 2 (-e2).toNat
  if 0 ≤ e10 then (up, down * Nat.pow 10 e10.toNat) else (up * Nat.pow 10 (-e10).toNat, down)

/-- The decimal exponent of the first digit of `num / den`, which is not zero. -/
def leadExponent (num den : Nat) : Int :=
  if den ≤ num then (digitCount (num / den) : Int) - 1
  else
    let k := digitCount (den / num)
    if den ≤ num * Nat.pow 10 (k - 1) then 1 - (k : Int) else -(k : Int)

/-- Whether the grid point `d`, in units of `10 ^ p`, lies in the interval. -/
def Interval.holds (i : Interval) (e2 p : Int) (d : Nat) : Bool :=
  let (low, den) := overPower i.low (e2 - 2) p
  let (high, _) := overPower i.high (e2 - 2) p
  if i.closed then low ≤ d * den && d * den ≤ high else low < d * den && d * den < high

/-- The point of the grid `10 ^ p` that lies in the interval, the nearer of two; at equal
distance the even one. -/
def Interval.pick (i : Interval) (e2 p : Int) : Option Nat :=
  let (mid, den) := overPower i.mid (e2 - 2) p
  let d := mid / den
  match i.holds e2 p d, i.holds e2 p (d + 1) with
  | true, false => some d
  | false, true => some (d + 1)
  | true, true => some (roundDiv mid den)
  | false, false => none

/-- Tries the grids from the coarsest; `n` counts those left. -/
def Interval.search (i : Interval) (e2 : Int) : Nat → Int → Option (Nat × Int)
  | 0, _ => none
  | n + 1, p =>
    match i.pick e2 p with
    | some d => some (d, p)
    | none => i.search e2 n (p - 1)

/-- Drops trailing zeros of a decimal into its exponent; the first argument bounds the steps. -/
def dropZeros : Nat → Nat → Int → Nat × Int
  | 0, d, p => (d, p)
  | fuel + 1, d, p => if d ≠ 0 ∧ d % 10 = 0 then dropZeros fuel (d / 10) (p + 1) else (d, p)

/-- The shortest decimal `digits * 10 ^ exponent` that reads back as the magnitude. -/
def shortest (x : Binary64) : Nat × Int :=
  if x.mantissa = 0 then (0, 0)
  else
    let (num, den) := x.ratio
    let i := x.interval
    match i.search x.exponent 17 (leadExponent num den) with
    | some (d, p) => dropZeros 20 d p
    | none => (x.mantissa, 0)

/-- Where positional notation ends: below the first exponent, and from the second on. -/
def positionalFrom : Int := -5
def positionalTo : Int := 16

/-- The digits with a point after the first `n`. -/
def pointed (ds : List Char) (n : Nat) : List Char :=
  ds.take n ++ '.' :: ds.drop n

/-- The text of a float: fewest digits, a point or an exponent always present, the sign of the
exponent always written. -/
def text (x : Binary64) : String :=
  let (d, p) := x.shortest
  let ds := Nat.toDigits 10 d
  let n := ds.length
  let lead : Int := p + n - 1
  let body :=
    if d = 0 then ['0', '.', '0']
    else if lead < positionalFrom ∨ positionalTo ≤ lead then
      let sign := if lead < 0 then '-' else '+'
      (if n = 1 then ds else pointed ds 1) ++ 'e' :: sign :: Nat.toDigits 10 lead.natAbs
    else if 0 ≤ p then ds ++ List.replicate p.toNat '0' ++ ['.', '0']
    else if 0 ≤ lead then pointed ds (lead.toNat + 1)
    else '0' :: '.' :: List.replicate (-lead - 1).toNat '0' ++ ds
  String.ofList (if x.negative then '-' :: body else body)

end FeedPoller.Binary64
