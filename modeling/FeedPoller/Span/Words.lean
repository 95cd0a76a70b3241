import FeedPoller.Span

/-! Spans in machine words: the whole seconds in 64 bits, the nanoseconds beyond them in 32. Products
and quotients are worked out on the two words apart, with a carry or a remainder from one to the other.
Every step is checked: a result means that none of them left its word. -/

namespace FeedPoller

namespace Word

/-- What ends a computation in words before it has a result. -/
inductive Fault where
  | overflow
  | divisionByZero
  deriving DecidableEq, Repr

/-- How many numbers a word of so many bits can hold. -/
def size (n : Nat) : Nat := Nat.pow 2 n

theorem size_32 : size 32 = 0x100000000 := rfl

theorem size_64 : size 64 = 0x10000000000000000 := rfl

variable {n : Nat}

/-- The sum, if it fits the word. -/
def plus? (a b : BitVec n) : Option (BitVec n) :=
  if a.toNat + b.toNat < size n then some (a + b) else none

/-- The product, if it fits the word. -/
def times? (a b : BitVec n) : Option (BitVec n) :=
  if a.toNat * b.toNat < size n then some (a * b) else none

/-- What has to fit its word. -/
def fitting {α : Type} : Option α → Except Fault α
  | some a => .ok a
  | none => .error .overflow

theorem plus?_of_lt {a b : BitVec n} (h : a.toNat + b.toNat < size n) :
    ∃ c, plus? a b = some c ∧ c.toNat = a.toNat + b.toNat :=
  ⟨a + b, if_pos h, by rw [BitVec.toNat_add]; exact Nat.mod_eq_of_lt h⟩

theorem plus?_of_le {a b : BitVec n} (h : size n ≤ a.toNat + b.toNat) : plus? a b = none :=
  if_neg (Nat.not_lt.mpr h)

theorem times?_of_lt {a b : BitVec n} (h : a.toNat * b.toNat < size n) :
    ∃ c, times? a b = some c ∧ c.toNat = a.toNat * b.toNat :=
  ⟨a * b, if_pos h, by rw [BitVec.toNat_mul]; exact Nat.mod_eq_of_lt h⟩

/-- A product and a carry. -/
theorem times?_plus?_of_lt {a b c : BitVec n} (h : a.toNat * b.toNat + c.toNat < size n) :
    ∃ s, (times? a b).bind (plus? · c) = some s ∧ s.toNat = a.toNat * b.toNat + c.toNat := by
  obtain ⟨product, hproduct, hnat⟩ := times?_of_lt (Nat.lt_of_le_of_lt (Nat.le_add_right ..) h)
  rw [hproduct, ← hnat]
  exact plus?_of_lt (hnat ▸ h)

theorem times?_plus?_of_le {a b c : BitVec n} (h : size n ≤ a.toNat * b.toNat + c.toNat) :
    (times? a b).bind (plus? · c) = none := by
  by_cases hproduct : a.toNat * b.toNat < size n
  · obtain ⟨product, hsome, hnat⟩ := times?_of_lt hproduct
    rw [hsome]
    exact plus?_of_le (hnat ▸ h)
  · rw [times?, if_neg hproduct, Option.bind_none]

/-- A word is the same number among 64 bits. -/
theorem toNat_widened (n : BitVec 32) : (n.setWidth 64).toNat = n.toNat := by
  rw [BitVec.toNat_setWidth, Nat.mod_eq_of_lt (by have := n.isLt; omega)]

/-- A number that fits a word is the same number in it. -/
theorem toNat_narrowed {n : BitVec 64} (h : n.toNat < size 32) : (n.setWidth 32).toNat = n.toNat := by
  rw [BitVec.toNat_setWidth]
  exact Nat.mod_eq_of_lt h

end Word

namespace Span

/-- Seconds, and nanoseconds that do not make up another one. -/
structure Words where
  secs : BitVec 64
  nanos : BitVec 32
  nanos_lt : nanos.toNat < 1000000000 := by decide
  deriving DecidableEq

namespace Words

open Word

/-- All of it in nanoseconds. -/
def inNanos (d : Words) : Nat := d.secs.toNat * 1000000000 + d.nanos.toNat

theorem inNanos_lt (d : Words) : d.inNanos < Span.limit := by
  have hsecs := d.secs.isLt
  have hnanos := d.nanos_lt
  simp only [inNanos, Span.limit]
  omega

/-- The span that the words stand for. -/
def span (d : Words) : Span := ⟨d.inNanos, d.inNanos_lt⟩

/-- The longest span. -/
def longest : Words where
  secs := 0xFFFFFFFFFFFFFFFF
  nanos := 999999999

/-- Seconds and nanoseconds, whose whole seconds are carried. -/
def ofParts (secs : BitVec 64) (nanos : BitVec 32) : Except Fault Words :=
  if h : nanos.toNat < 1000000000 then .ok ⟨secs, nanos, h⟩
  else do
    let secs ← fitting (plus? secs ((nanos / 1000000000).setWidth 64))
    return { secs, nanos := nanos % 1000000000, nanos_lt := Nat.mod_lt _ (by decide) }

/-- The product; none if it is longer than any span. -/
def times (d : Words) (n : BitVec 32) : Except Fault (Option Words) := do
  let nanos ← fitting (times? (d.nanos.setWidth 64) (n.setWidth 64))
  match (times? d.secs (n.setWidth 64)).bind (plus? · (nanos / 1000000000)) with
  | none => return none
  | some secs => return some (← ofParts secs ((nanos % 1000000000).setWidth 32))

/-- The nanoseconds of a quotient: those of each part, and its share of what is left of the seconds. -/
def nanosEach (d : Words) (n : BitVec 32) : Except Fault (BitVec 32) := do
  let left ← fitting (times? (d.secs % n.setWidth 64) 1000000000)
  let left ← fitting (plus? left ((d.nanos % n).setWidth 64))
  fitting (plus? (d.nanos / n) ((left / n.setWidth 64).setWidth 32))

/-- The quotient rounded down. -/
def divBy (d : Words) (n : BitVec 32) : Except Fault Words :=
  if n = 0 then .error .divisionByZero
  else do ofParts (d.secs / n.setWidth 64) (← d.nanosEach n)

/-! ## What the words come to -/

theorem ofParts_of_lt {secs : BitVec 64} {nanos : BitVec 32} (h : nanos.toNat < 1000000000) :
    ofParts secs nanos = .ok ⟨secs, nanos, h⟩ := dif_pos h

/-- A factor takes no nanoseconds beyond 64 bits. -/
theorem nanos_mul_lt (d : Words) (n : BitVec 32) : d.nanos.toNat * n.toNat < size 64 := by
  calc d.nanos.toNat * n.toNat ≤ 999999999 * 4294967295 :=
        Nat.mul_le_mul (Nat.le_of_lt_succ d.nanos_lt) (Nat.le_of_lt_succ n.isLt)
    _ < size 64 := by decide

theorem inNanos_mul (d : Words) (n : Nat) :
    d.inNanos * n = (d.secs.toNat * n + d.nanos.toNat * n / 1000000000) * 1000000000 +
      d.nanos.toNat * n % 1000000000 := by
  have hcarry := Nat.div_add_mod (d.nanos.toNat * n) 1000000000
  calc d.inNanos * n = d.secs.toNat * n * 1000000000 + d.nanos.toNat * n := by
        rw [inNanos, Nat.add_mul, Nat.mul_right_comm]
    _ = _ := by
        generalize d.nanos.toNat * n = nanos at hcarry ⊢
        generalize d.secs.toNat * n = secs
        omega

/-- A product is there just when it is no longer than a span can be, and it is exact. -/
theorem times_eq (d : Words) (n : BitVec 32) :
    ∃ product, d.times n = .ok product ∧
      (product.getD longest).inNanos =
        if d.inNanos * n.toNat < Span.limit then d.inNanos * n.toNat else Span.limit - 1 := by
  have hmul := d.inNanos_mul n.toNat
  have hrest : d.nanos.toNat * n.toNat % 1000000000 < 1000000000 := Nat.mod_lt _ (by decide)
  obtain ⟨nanos, hnanos, hnat⟩ := times?_of_lt (a := d.nanos.setWidth 64) (b := n.setWidth 64)
    (by rw [toNat_widened, toNat_widened]; exact d.nanos_mul_lt n)
  rw [toNat_widened, toNat_widened] at hnat
  rw [← hnat] at hmul hrest
  have hcarry : (nanos / 1000000000).toNat = nanos.toNat / 1000000000 := BitVec.toNat_udiv
  have hleft : ((nanos % 1000000000).setWidth 32).toNat = nanos.toNat % 1000000000 :=
    toNat_narrowed (Nat.lt_trans hrest (by decide))
  have hspan : d.inNanos * n.toNat < Span.limit ↔
      d.secs.toNat * n.toNat + nanos.toNat / 1000000000 < size 64 := by
    rw [hmul, Span.limit, size_64]
    omega
  unfold times
  rw [hnanos]
  by_cases hfits : d.secs.toNat * n.toNat + nanos.toNat / 1000000000 < size 64
  · obtain ⟨secs, hsecs, hsecsNat⟩ :=
      times?_plus?_of_lt (a := d.secs) (b := n.setWidth 64) (c := nanos / 1000000000)
        (by rw [toNat_widened, hcarry]; exact hfits)
    rw [toNat_widened, hcarry] at hsecsNat
    refine ⟨some ⟨secs, _, hleft ▸ hrest⟩, ?_, ?_⟩
    · simp only [fitting, bind, Except.bind, hsecs, ofParts_of_lt (hleft ▸ hrest)]
      rfl
    · rw [if_pos (hspan.mpr hfits), hmul, Option.getD_some, inNanos, hsecsNat, hleft]
  · have hnone := times?_plus?_of_le (a := d.secs) (b := n.setWidth 64) (c := nanos / 1000000000)
      (by rw [toNat_widened, hcarry]; exact Nat.not_lt.mp hfits)
    refine ⟨none, ?_, ?_⟩
    · simp only [fitting, bind, Except.bind, hnone]
      rfl
    · rw [if_neg (mt hspan.mp hfits)]
      rfl

/-- The remainder of the seconds goes on to the nanoseconds. -/
theorem inNanos_div (d : Words) {n : Nat} (hn : 0 < n) :
    d.inNanos / n = d.secs.toNat / n * 1000000000 +
      (d.nanos.toNat / n + (d.secs.toNat % n * 1000000000 + d.nanos.toNat % n) / n) := by
  have hsecs := Nat.div_add_mod d.secs.toNat n
  have hnanos := Nat.div_add_mod d.nanos.toNat n
  have hsplit : d.inNanos = n * (d.secs.toNat / n * 1000000000 + d.nanos.toNat / n) +
      (d.secs.toNat % n * 1000000000 + d.nanos.toNat % n) := by
    rw [inNanos, Nat.mul_add, ← Nat.mul_assoc]
    omega
  rw [hsplit, Nat.mul_add_div hn, Nat.add_assoc]

/-- What is left of the seconds makes up no whole one for each part. -/
theorem left_div_lt (d : Words) {n : Nat} (hn : 0 < n) :
    d.nanos.toNat / n + (d.secs.toNat % n * 1000000000 + d.nanos.toNat % n) / n < 1000000000 := by
  have hleft : d.secs.toNat % n < n := Nat.mod_lt _ hn
  have hnanos := Nat.div_add_mod d.nanos.toNat n
  have hlt := d.nanos_lt
  have htogether : d.nanos.toNat / n + (d.secs.toNat % n * 1000000000 + d.nanos.toNat % n) / n =
      (d.secs.toNat % n * 1000000000 + d.nanos.toNat) / n := by
    rw [← Nat.mul_add_div hn]
    congr 1
    omega
  rw [htogether]
  refine Nat.div_lt_of_lt_mul ?_
  calc d.secs.toNat % n * 1000000000 + d.nanos.toNat
      < (d.secs.toNat % n + 1) * 1000000000 := by omega
    _ ≤ n * 1000000000 := Nat.mul_le_mul_right _ hleft

theorem nanosEach_eq (d : Words) {n : BitVec 32} (hn : 0 < n.toNat) :
    ∃ nanos, d.nanosEach n = .ok nanos ∧ nanos.toNat = d.nanos.toNat / n.toNat +
      (d.secs.toNat % n.toNat * 1000000000 + d.nanos.toNat % n.toNat) / n.toNat := by
  have hbound := n.isLt
  have hparts := d.left_div_lt hn
  have hsecs : (d.secs % n.setWidth 64).toNat = d.secs.toNat % n.toNat := by
    rw [BitVec.toNat_umod, toNat_widened]
  have hsecsLt : d.secs.toNat % n.toNat < n.toNat := Nat.mod_lt _ hn
  have hnanos : ((d.nanos % n).setWidth 64).toNat = d.nanos.toNat % n.toNat := by
    rw [toNat_widened, BitVec.toNat_umod]
  have hnanosLt : d.nanos.toNat % n.toNat < n.toNat := Nat.mod_lt _ hn
  have hsecond : (1000000000 : BitVec 64).toNat = 1000000000 := rfl
  obtain ⟨scaled, hscaled, hscaledNat⟩ :=
    times?_of_lt (a := d.secs % n.setWidth 64) (b := 1000000000) (by rw [hsecs, hsecond, size_64]; omega)
  rw [hsecs, hsecond] at hscaledNat
  obtain ⟨left, hleft, hleftNat⟩ :=
    plus?_of_lt (a := scaled) (b := (d.nanos % n).setWidth 64) (by rw [hscaledNat, hnanos, size_64]; omega)
  rw [hscaledNat, hnanos] at hleftNat
  rw [← hleftNat] at hparts ⊢
  have hshare : ((left / n.setWidth 64).setWidth 32).toNat = left.toNat / n.toNat := by
    have hdiv : (left / n.setWidth 64).toNat = left.toNat / n.toNat := by
      rw [BitVec.toNat_udiv, toNat_widened]
    have hlt := Nat.lt_of_le_of_lt (Nat.le_add_left ..) hparts
    rw [toNat_narrowed (hdiv ▸ Nat.lt_trans hlt (by decide)), hdiv]
  have hwhole : (d.nanos / n).toNat = d.nanos.toNat / n.toNat := BitVec.toNat_udiv
  obtain ⟨nanos, hsum, hsumNat⟩ :=
    plus?_of_lt (a := d.nanos / n) (b := (left / n.setWidth 64).setWidth 32)
      (by rw [hwhole, hshare, size_32]; omega)
  rw [hwhole, hshare] at hsumNat
  refine ⟨nanos, ?_, hsumNat⟩
  rw [nanosEach, hscaled]
  simp only [fitting, bind, Except.bind, hleft, hsum]

/-- A quotient is always there, exact but for what is rounded off. -/
theorem divBy_eq (d : Words) {n : BitVec 32} (hn : n ≠ 0) :
    ∃ q, d.divBy n = .ok q ∧ q.inNanos = d.inNanos / n.toNat := by
  have hpos : 0 < n.toNat := Nat.pos_of_ne_zero fun h => hn (BitVec.eq_of_toNat_eq h)
  obtain ⟨nanos, heach, hnanos⟩ := d.nanosEach_eq hpos
  have hlt : nanos.toNat < 1000000000 := hnanos ▸ d.left_div_lt hpos
  refine ⟨⟨d.secs / n.setWidth 64, nanos, hlt⟩, ?_, ?_⟩
  · rw [divBy, if_neg hn, heach]
    simp only [bind, Except.bind, ofParts_of_lt hlt]
  · rw [d.inNanos_div hpos, inNanos, BitVec.toNat_udiv, toNat_widened, hnanos]

end Words
end Span
end FeedPoller
