/-! Spans of time. A span is a whole number of nanoseconds below `2 ^ 64` seconds; arithmetic that
would leave that range stops at its end. -/

namespace FeedPoller

/-- One more than the nanoseconds of the longest span. -/
def Span.limit : Nat := 0x10000000000000000 * 1000000000

structure Span where
  nanos : Nat
  bounded : nanos < Span.limit := by decide
  deriving DecidableEq, Repr

namespace Span

theorem ext {a b : Span} (h : a.nanos = b.nanos) : a = b := by
  cases a; cases b; cases h; rfl

/-- The span of so many nanoseconds, or the longest one. -/
def ofNanos (n : Nat) : Span :=
  ⟨min n (limit - 1), by have : 0 < limit := by decide
                         omega⟩

theorem nanos_ofNanos {n : Nat} (h : n < limit) : (ofNanos n).nanos = n := by
  simp only [ofNanos]; omega

def ofSecs (n : Nat) : Span := ofNanos (n * 1000000000)

def zero : Span := { nanos := 0 }

instance : Inhabited Span := ⟨zero⟩

/-- The longest span. -/
def longest : Span := { nanos := limit - 1 }

def isZero (s : Span) : Bool := s.nanos == 0

/-- Whole seconds. -/
def secs (s : Span) : Nat := s.nanos / 1000000000

/-- The nanoseconds beyond whole seconds. -/
def subsecNanos (s : Span) : Nat := s.nanos % 1000000000

/-- Whole milliseconds. -/
def millis (s : Span) : Nat := s.nanos / 1000000

/-- Whole milliseconds as a 64-bit word: those of a span beyond that range lose their high bits. -/
def millisWord (s : Span) : Nat := s.millis % 0x10000000000000000

/-- Whole seconds, a part of a second counted as one. -/
def secsCeil (s : Span) : Nat := (s.nanos + 999999999) / 1000000000

/-- The product, or the longest span. -/
def times (s : Span) (n : Nat) : Span := ofNanos (s.nanos * n)

/-- The quotient rounded down; by zero it is the span itself. -/
def divBy (s : Span) (n : Nat) : Span :=
  if n = 0 then s
  else ⟨s.nanos / n, Nat.lt_of_le_of_lt (Nat.div_le_self ..) s.bounded⟩

/-- The difference, or zero. -/
def minus (s t : Span) : Span :=
  ⟨s.nanos - t.nanos, Nat.lt_of_le_of_lt (Nat.sub_le ..) s.bounded⟩

theorem nanos_divBy {s : Span} {n : Nat} (h : n ≠ 0) : (s.divBy n).nanos = s.nanos / n := by
  simp [divBy, h]

theorem nanos_times (s : Span) (n : Nat) : (s.times n).nanos = min (s.nanos * n) (limit - 1) := rfl

theorem isZero_eq_false_iff {s : Span} : s.isZero = false ↔ 0 < s.nanos := by
  rw [isZero, beq_eq_false_iff_ne, Nat.pos_iff_ne_zero]

/-- The word tells the milliseconds just when they fit it. -/
theorem millisWord_eq_iff {s : Span} : s.millisWord = s.millis ↔ s.millis < 0x10000000000000000 :=
  Nat.mod_eq_iff_lt (by decide)

@[simp] theorem nanos_minus (s t : Span) : (s.minus t).nanos = s.nanos - t.nanos := rfl

/-! ## Text -/

/-- The fraction `n / 10 ^ places` after its point, without trailing zeros; nothing for zero. -/
def fractionDigits (n places : Nat) : List Char :=
  let ds := Nat.toDigits 10 n
  let padded := List.replicate (places - ds.length) '0' ++ ds
  (padded.reverse.dropWhile (· == '0')).reverse

/-- A quantity and its unit: the whole part, then the fraction if there is one. -/
def quantity (whole fraction places : Nat) (unit : String) : String :=
  let ds := fractionDigits fraction places
  toString whole ++ (if ds.isEmpty then "" else "." ++ String.ofList ds) ++ unit

/-- The span in the largest unit of which it holds at least one: s, ms, µs or ns. -/
def text (s : Span) : String :=
  let n := s.nanos
  if 1000000000 ≤ n then quantity (n / 1000000000) (n % 1000000000) 9 "s"
  else if 1000000 ≤ n then quantity (n / 1000000) (n % 1000000) 6 "ms"
  else if 1000 ≤ n then quantity (n / 1000) (n % 1000) 3 "\u00b5s"
  else quantity n 0 0 "ns"

end Span
end FeedPoller
