import FeedPoller.Backoff

/-! The delay between polls, worked out in words. Main statement: none of its steps leaves its word, and
what comes out is the exact quotient of all windows by the limit, rounded down to nanoseconds; so it never
grows with the limit, and never shrinks when the window or the number of windows grows
(`nominalDelay_exact`). -/

namespace FeedPoller.Backoff

/-- All windows together, in nanoseconds. Together they may be longer than any span: then they are the
longest one. -/
def together (window : Span.Words) (period : BitVec 32) : Nat :=
  if window.inNanos * period.toNat < Span.limit then window.inNanos * period.toNat
  else Span.limit - 1

/-- Both bounds on the product hold: the longest span is the most there is of any of them. -/
theorem together_eq_min (window : Span.Words) (period : BitVec 32) :
    together window period = min (window.inNanos * period.toNat) (Span.limit - 1) := by
  have hpos : 0 < Span.limit := by decide
  unfold together
  split <;> omega

theorem together_mono {window window' : Span.Words} {period period' : BitVec 32}
    (hwindow : window.inNanos ≤ window'.inNanos) (hperiod : period.toNat ≤ period'.toNat) :
    together window period ≤ together window' period' := by
  have hproduct : window.inNanos * period.toNat ≤ window'.inNanos * period'.toNat :=
    Nat.mul_le_mul hwindow hperiod
  rw [together_eq_min, together_eq_min]
  omega

/-- What a delay is to the time that so many polls have to fill. -/
structure Fills (limit : BitVec 32) (total : Nat) (d : Span.Words) : Prop where
  nanos_lt : d.nanos.toNat < 1000000000
  floor : d.inNanos = total / limit.toNat
  le : limit.toNat * d.inNanos ≤ total
  lt : total < limit.toNat * (d.inNanos + 1)

theorem Fills.of_floor {limit : BitVec 32} {total : Nat} {d : Span.Words} (hlimit : 0 < limit.toNat)
    (h : d.inNanos = total / limit.toNat) : Fills limit total d where
  nanos_lt := d.nanos_lt
  floor := h
  le := h ▸ Nat.mul_div_le ..
  lt := h ▸ Nat.lt_mul_div_succ total hlimit

/-- The steps in words come to the end, with the quotient. -/
theorem nominalDelayInWords_eq {limit : BitVec 32} (hlimit : 0 < limit.toNat) (window : Span.Words)
    (period : BitVec 32) : ∃ d, nominalDelayInWords limit window period = .ok d ∧
      Fills limit (together window period) d := by
  have hne : limit ≠ 0 := fun h => absurd hlimit (by rw [h]; decide)
  obtain ⟨product, hproduct, hnanos⟩ := window.times_eq period
  obtain ⟨d, hd, hquotient⟩ := (product.getD Span.Words.longest).divBy_eq hne
  refine ⟨d, ?_, .of_floor hlimit (hquotient.trans (congrArg (· / limit.toNat) hnanos))⟩
  rw [nominalDelayInWords, bind_eq_ok_iff]
  exact ⟨product, hproduct, by rw [if_neg hne]; exact hd⟩

/-- A delay of the same time is the same in words as it is as a span. -/
theorem Fills.span_eq {limit period : BitVec 32} {window d : Span.Words} (hlimit : 0 < limit.toNat)
    (h : Fills limit (together window period) d) :
    nominalDelay limit.toNat window.span period.toNat = d.span := by
  refine Span.ext ?_
  rw [nanos_nominalDelay (Nat.pos_iff_ne_zero.mp hlimit)]
  exact (h.floor.trans (congrArg (· / limit.toNat) (together_eq_min window period))).symm

/-- More polls have less time each, more time is more for each of them. -/
theorem Fills.mono {limit limit' : BitVec 32} {total total' : Nat} {d d' : Span.Words}
    (h : Fills limit total d) (h' : Fills limit' total' d') (hpos : 0 < limit.toNat)
    (hlimit : limit.toNat ≤ limit'.toNat) (htotal : total' ≤ total) : d'.inNanos ≤ d.inNanos := by
  rw [h.floor, h'.floor]
  calc total' / limit'.toNat ≤ total' / limit.toNat := Nat.div_le_div_left hlimit hpos
    _ ≤ total / limit.toNat := Nat.div_le_div_right htotal

/-- For any limit but zero the delay is worked out without a fault, and is the exact quotient rounded
down, the one by which polls are scheduled. It never grows with the limit, nor when the window is shorter
or there are fewer of them, on whichever side of the longest span all the windows together are. -/
theorem nominalDelay_exact :
    (∀ (limit : BitVec 32) (window : Span.Words) (period : BitVec 32), 0 < limit.toNat →
      ∃ d, nominalDelayInWords limit window period = .ok d ∧
        Fills limit (together window period) d ∧
        nominalDelay limit.toNat window.span period.toNat = d.span) ∧
      ∀ (limit limit' : BitVec 32) (window window' : Span.Words) (period period' : BitVec 32)
        (d d' : Span.Words), 0 < limit.toNat → limit.toNat ≤ limit'.toNat →
        window'.inNanos ≤ window.inNanos → period'.toNat ≤ period.toNat →
        nominalDelayInWords limit window period = .ok d →
        nominalDelayInWords limit' window' period' = .ok d' → d'.inNanos ≤ d.inNanos := by
  refine ⟨fun limit window period hlimit => ?_, ?_⟩
  · obtain ⟨d, hd, hfills⟩ := nominalDelayInWords_eq hlimit window period
    exact ⟨d, hd, hfills, hfills.span_eq hlimit⟩
  · intro limit limit' window window' period period' d d' hpos hlimit hwindow hperiod hd hd'
    obtain ⟨e, he, hfills⟩ := nominalDelayInWords_eq hpos window period
    obtain ⟨e', he', hfills'⟩ :=
      nominalDelayInWords_eq (Nat.lt_of_lt_of_le hpos hlimit) window' period'
    cases he.symm.trans hd
    cases he'.symm.trans hd'
    exact hfills.mono hfills' hpos hlimit (together_mono hwindow hperiod)

/-- Windows that are longer together than any span, shared by seven polls, beside one of an hour for
eight. -/
theorem overlong_nominalDelay_exact :
    ∃ d : Span.Words, nominalDelayInWords 7 .longest 2 = .ok d ∧ Fills 7 (Span.limit - 1) d ∧
      nominalDelay 7 Span.Words.longest.span 2 = d.span ∧
      d.secs = 2635249153387078802 ∧ d.nanos = 285714285 ∧
      ∃ d', nominalDelayInWords 8 { secs := 3600, nanos := 0 } 1 = .ok d' ∧
        d'.secs = 450 ∧ d'.inNanos ≤ d.inNanos := by
  obtain ⟨hexact, hmono⟩ := nominalDelay_exact
  obtain ⟨d, hd, hfills, hspan⟩ := hexact 7 .longest 2 (by decide)
  have hseven : nominalDelayInWords 7 .longest 2 =
      .ok { secs := 2635249153387078802, nanos := 285714285 } := by rfl
  have height : nominalDelayInWords 8 { secs := 3600, nanos := 0 } 1 =
      .ok { secs := 450, nanos := 0 } := by rfl
  have htogether : together .longest 2 = Span.limit - 1 := by decide +kernel
  rw [htogether] at hfills
  cases hseven.symm.trans hd
  refine ⟨_, hd, hfills, hspan, rfl, rfl, _, height, rfl, ?_⟩
  refine hmono 7 8 .longest _ 2 1 _ _ (by decide) (by decide) ?_ (by decide) hd height
  decide +kernel

end FeedPoller.Backoff
