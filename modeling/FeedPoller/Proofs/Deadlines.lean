import FeedPoller.Proofs.Suspension

/-! When suspensions end. Events go by a clock that never goes back. A timer goes off only once it is
due, though it may be late and may have been called off; that it belongs to the latest suspension is
known by its generation alone. Main statement: `suspension_deadlines`. -/

namespace FeedPoller.Control

/-! ## Events by the clock -/

def Event.moment : Event → Nat
  | .suspend now .. | .resume now | .timer _ now => now

/-- The event ends a suspension. -/
def Returns (es : List Event) (e : Event) : Prop :=
  (after es).state = .suspended ∧ (after (es ++ [e])).state = .running

/-- A timer that one of the events set, called off since or not. -/
def WasSet (es : List Event) (t : ResumeTimer) : Prop :=
  ∃ before now asked autoDelay since, es = before ++ .suspend now asked autoDelay :: since ∧
    ((after before).suspend now asked autoDelay).2.timer = some t

/-- What may come next: nothing earlier, and a timer only if it was set and is due. -/
structure Next (es : List Event) (e : Event) : Prop where
  later : ∀ e' ∈ es, e'.moment ≤ e.moment
  due : ∀ generation now, e = .timer generation now →
    ∃ t, WasSet es t ∧ t.generation = generation ∧ t.deadline ≤ now

/-- Events in the order of the clock, each as it may come next. -/
inductive Timed : List Event → Prop
  | start : Timed []
  | next {es : List Event} {e : Event} : Timed es → Next es e → Timed (es ++ [e])

theorem Timed.of_concat {es : List Event} {e : Event} (h : Timed (es ++ [e])) :
    Timed es ∧ Next es e := by
  generalize hes : es ++ [e] = es' at h
  cases h with
  | start => simp at hes
  | next h hnext =>
    obtain ⟨rfl, heq⟩ := List.append_inj' hes rfl
    obtain rfl := List.singleton_inj.mp heq
    exact ⟨h, hnext⟩

theorem Timed.of_append {es es' : List Event} (h : Timed (es ++ es')) : Timed es := by
  induction es' using List.reverseRecOn with
  | nil => rwa [List.append_nil] at h
  | append_singleton es' e ih =>
    rw [← List.append_assoc] at h
    exact ih h.of_concat.1

/-- What happens at one moment, timers apart, may come when that moment does. -/
theorem Timed.append_now {es es' : List Event} {now : Nat} (h : Timed es)
    (hpast : ∀ e ∈ es, e.moment ≤ now)
    (hnow : ∀ e ∈ es', e.moment = now ∧ ∀ generation moment, e ≠ .timer generation moment) :
    Timed (es ++ es') := by
  induction es' using List.reverseRecOn with
  | nil => rwa [List.append_nil]
  | append_singleton es' e ih =>
    obtain ⟨hmoment, he⟩ := hnow e (by simp)
    have hinit := ih fun e' he' => hnow e' (List.mem_append_left _ he')
    rw [← List.append_assoc]
    refine hinit.next ⟨?_, fun generation moment heq => absurd heq (he generation moment)⟩
    intro e' he'
    rw [hmoment]
    rcases List.mem_append.mp he' with he' | he'
    · exact hpast e' he'
    · exact Nat.le_of_eq (hnow e' (List.mem_append_left _ he')).1

/-! ## Timers and the suspension they belong to -/

theorem WasSet.append {es : List Event} {t : ResumeTimer} (h : WasSet es t) (es' : List Event) :
    WasSet (es ++ es') t := by
  obtain ⟨before, now, asked, autoDelay, since, rfl, ht⟩ := h
  exact ⟨before, now, asked, autoDelay, since ++ es', by simp, ht⟩

theorem wasSet_suspend (es : List Event) (now : Nat) (asked : RateLimit) (autoDelay : Bool) :
    WasSet (es ++ [.suspend now asked autoDelay])
      ⟨(after es).generation + 1, now + ((after es).suspend now asked autoDelay).1.nanos⟩ :=
  ⟨es, now, asked, autoDelay, [], rfl, rfl⟩

/-- A timer was set earlier, or is the one that the last event sets. -/
theorem WasSet.of_concat {es : List Event} {e : Event} {t : ResumeTimer} (h : WasSet (es ++ [e]) t) :
    WasSet es t ∨ ∃ now asked autoDelay, e = .suspend now asked autoDelay ∧
      ((after es).suspend now asked autoDelay).2.timer = some t := by
  obtain ⟨before, now, asked, autoDelay, since, heq, ht⟩ := h
  rcases List.eq_nil_or_concat since with rfl | ⟨since, last, rfl⟩
  · obtain ⟨rfl, hlast⟩ := List.append_inj' heq rfl
    obtain rfl := List.singleton_inj.mp hlast
    exact .inr ⟨now, asked, autoDelay, rfl, ht⟩
  · rw [List.concat_eq_append, ← List.cons_append, ← List.append_assoc] at heq
    obtain ⟨rfl, -⟩ := List.append_inj' heq rfl
    exact .inl ⟨before, now, asked, autoDelay, since, rfl, ht⟩

theorem generation_le_step (c : Control) (e : Event) : c.generation ≤ (c.step e).2.generation := by
  have h := step_generation c e
  split at h
  · exact Nat.le_of_lt h
  · exact Nat.le_of_eq (congrArg generation h.symm)

/-- No timer is ahead of the control. -/
theorem WasSet.generation_le {es : List Event} {t : ResumeTimer} (h : WasSet es t) :
    t.generation ≤ (after es).generation := by
  induction es using List.reverseRecOn with
  | nil =>
    obtain ⟨before, _, _, _, _, heq, -⟩ := h
    simp at heq
  | append_singleton es e ih =>
    rw [after_concat]
    obtain hold | ⟨now, asked, autoDelay, rfl, ht⟩ := h.of_concat
    · exact Nat.le_trans (ih hold) (generation_le_step ..)
    · obtain rfl := Option.some.inj ht
      exact Nat.le_refl _

/-- Among all timers that were set, the one of the generation at hand is the one that is set now. -/
theorem WasSet.eq_timer {es : List Event} {t : ResumeTimer} (h : WasSet es t)
    (hs : (after es).state = .suspended) (hg : t.generation = (after es).generation) :
    (after es).timer = some t := by
  induction es using List.reverseRecOn with
  | nil => cases hs
  | append_singleton es e ih =>
    rw [after_concat] at hs hg ⊢
    obtain ⟨now, asked, autoDelay, rfl, hstep⟩ | ⟨now, -, -, hstep⟩ | ⟨he, hstep⟩ :=
      step_cases (after es) e
    · obtain hold | ⟨_, _, _, heq, ht⟩ := h.of_concat
      · -- an older timer has an older generation
        have hle := hold.generation_le
        rw [hstep] at hg
        simp only [suspend] at hg
        omega
      · cases heq
        rw [hstep]
        exact ht
    · rw [hstep] at hs
      cases hs
    · rw [hstep] at hs hg ⊢
      obtain hold | ⟨now, asked, autoDelay, rfl, -⟩ := h.of_concat
      · exact ih hold hs hg
      · exact absurd trivial he

/-- The suspension at hand: no other one came after it, and the timer that is set is its timer. -/
structure Latest (es before : List Event) (now : Nat) (asked : RateLimit) (autoDelay : Bool)
    (since : List Event) : Prop where
  split : es = before ++ .suspend now asked autoDelay :: since
  last : ∀ e ∈ since, ¬ e.Suspends
  timer : (after es).timer = ((after before).suspend now asked autoDelay).2.timer

theorem exists_latest {es : List Event} (hs : (after es).state = .suspended) :
    ∃ before now asked autoDelay since, Latest es before now asked autoDelay since := by
  induction es using List.reverseRecOn with
  | nil => cases hs
  | append_singleton es e ih =>
    rw [after_concat] at hs
    obtain ⟨now, asked, autoDelay, rfl, hstep⟩ | ⟨now, -, -, hstep⟩ | ⟨he, hstep⟩ :=
      step_cases (after es) e
    · refine ⟨es, now, asked, autoDelay, [], rfl, by simp, ?_⟩
      rw [after_concat, hstep]
    · rw [hstep] at hs
      cases hs
    · rw [hstep] at hs
      obtain ⟨before, now, asked, autoDelay, since, rfl, hsince, htimer⟩ := ih hs
      refine ⟨before, now, asked, autoDelay, since ++ [e], by simp, ?_, ?_⟩
      · intro e' he'
        rcases List.mem_append.mp he' with he' | he'
        · exact hsince e' he'
        · rw [List.mem_singleton.mp he']
          exact he
      · rw [after_concat, hstep, htimer]

/-- The timer that is set was set by one of the events. -/
theorem wasSet_timer {es : List Event} {t : ResumeTimer} (h : (after es).timer = some t) :
    WasSet es t := by
  have hs : (after es).state = .suspended := (signalled_after es).timer.mp (by rw [h]; rfl)
  obtain ⟨before, now, asked, autoDelay, since, hlatest⟩ := exists_latest hs
  exact ⟨before, now, asked, autoDelay, since, hlatest.split, hlatest.timer ▸ h⟩

/-- A timer that ends a suspension does so when the time is over that the latest suspension gave. -/
theorem Next.not_early {es : List Event} {generation now : Nat}
    (hnext : Next es (.timer generation now)) (hreturns : Returns es (.timer generation now)) :
    ∃ before t asked autoDelay since, Latest es before t asked autoDelay since ∧
      t + ((after before).suspend t asked autoDelay).1.nanos ≤ now := by
  obtain ⟨hs, hrunning⟩ := hreturns
  rw [after_concat] at hrunning
  obtain ⟨-, hg⟩ := timer_claim_iff.mp (step_claim_iff.mpr ⟨hs, hrunning⟩)
  obtain ⟨t, hset, ht, hdue⟩ := hnext.due generation now rfl
  have htimer := hset.eq_timer hs (ht.trans hg.symm)
  obtain ⟨before, moment, asked, autoDelay, since, hlatest⟩ := exists_latest hs
  refine ⟨before, moment, asked, autoDelay, since, hlatest, ?_⟩
  rw [hlatest.timer] at htimer
  obtain rfl := Option.some.inj htimer
  exact hdue

/-- Between being suspended and going on there is an event that ends the suspension. -/
theorem exists_return {es since : List Event} (hs : (after es).state = .suspended)
    (hrunning : (after (es ++ since)).state = .running) :
    ∃ between e rest, since = between ++ e :: rest ∧ Returns (es ++ between) e ∧
      ∀ k ≤ between.length, (after (es ++ between.take k)).state = .suspended := by
  induction since generalizing es with
  | nil =>
    rw [List.append_nil, hs] at hrunning
    cases hrunning
  | cons e since ih =>
    cases he : (after (es ++ [e])).state with
    | running =>
      refine ⟨[], e, since, rfl, ?_, ?_⟩
      · rw [List.append_nil]
        exact ⟨hs, he⟩
      · intro k _
        rw [List.take_nil, List.append_nil]
        exact hs
    | suspended =>
      rw [List.append_cons] at hrunning
      obtain ⟨between, e', rest, rfl, hreturns, hheld⟩ := ih he hrunning
      refine ⟨e :: between, e', rest, rfl, List.append_cons .. ▸ hreturns, fun k hk => ?_⟩
      match k with
      | 0 =>
        rw [List.take_zero, List.append_nil]
        exact hs
      | k + 1 =>
        rw [List.take_succ_cons, List.append_cons]
        exact hheld k (Nat.le_of_succ_le_succ hk)

/-- What came after a suspension cut it short: a call from outside to resume, or another suspension
that is over earlier. -/
inductive CutShort (before : List Event) (t : Nat) (asked : RateLimit) (autoDelay : Bool) :
    List Event → Prop
  | resumed {between : List Event} {now : Nat} (rest : List Event) :
      Returns (before ++ .suspend t asked autoDelay :: between) (.resume now) →
      CutShort before t asked autoDelay (between ++ .resume now :: rest)
  | replaced {between : List Event} {t' : Nat} {asked' : RateLimit} {autoDelay' : Bool}
      (rest : List Event) :
      (after (before ++ .suspend t asked autoDelay :: between)).state = .suspended →
      t' + ((after (before ++ .suspend t asked autoDelay :: between)).suspend t' asked'
        autoDelay').1.nanos < t + ((after before).suspend t asked autoDelay).1.nanos →
      CutShort before t asked autoDelay (between ++ .suspend t' asked' autoDelay' :: rest)

/-- Polling goes on before the time is over that a suspension gave only if it was cut short. -/
theorem Timed.early {before since : List Event} {t r : Nat} {asked : RateLimit} {autoDelay : Bool}
    (h : Timed (before ++ .suspend t asked autoDelay :: since))
    (hnow : ∀ e ∈ since, e.moment ≤ r)
    (hrunning : (after (before ++ .suspend t asked autoDelay :: since)).state = .running)
    (hearly : r < t + ((after before).suspend t asked autoDelay).1.nanos) :
    CutShort before t asked autoDelay since := by
  have hs : (after (before ++ [.suspend t asked autoDelay])).state = .suspended := by
    rw [after_concat]
    rfl
  rw [List.append_cons] at hrunning
  obtain ⟨between, e, rest, rfl, hreturns, hheld⟩ := exists_return hs hrunning
  rw [← List.append_cons] at hreturns
  cases e with
  | suspend => exact absurd (after_concat .. ▸ hreturns.2) (by simp [step, suspend])
  | resume now => exact .resumed rest hreturns
  | timer generation now =>
    -- the timer is that of the latest suspension: of this one, or of one after it
    have hnext : Next (before ++ .suspend t asked autoDelay :: between) (.timer generation now) := by
      have hupto : Timed (before ++ .suspend t asked autoDelay :: between ++
          [.timer generation now] ++ rest) := by simpa using h
      exact hupto.of_append.of_concat.2
    obtain ⟨before', t', asked', autoDelay', since', hlatest, hdue⟩ := hnext.not_early hreturns
    have hr : now ≤ r := hnow (.timer generation now) (by simp)
    obtain ⟨mid, rfl, hmid⟩ | ⟨mid, rfl, hmid⟩ := List.append_eq_append_iff.mp hlatest.split
    · cases mid with
      | nil =>
        obtain ⟨heq, -⟩ := List.cons.inj hmid
        cases heq
        rw [List.append_nil] at hdue
        omega
      | cons e' mid =>
        rw [List.cons_append] at hmid
        obtain ⟨rfl, rfl⟩ := List.cons.inj hmid
        have hstate := hheld mid.length (by simp)
        rw [List.take_left, ← List.append_cons] at hstate
        have hearlier := Nat.lt_of_le_of_lt (Nat.le_trans hdue hr) hearly
        have hcut := CutShort.replaced (since' ++ .timer generation now :: rest) hstate hearlier
        simpa using hcut
    · cases mid with
      | nil =>
        obtain ⟨heq, -⟩ := List.cons.inj hmid
        cases heq
        rw [List.append_nil] at hearly
        omega
      | cons e' mid =>
        obtain ⟨rfl, rfl⟩ := List.cons.inj hmid
        exact absurd trivial (hlatest.last (.suspend t asked autoDelay) (by simp))

/-! ## When polling began to go on -/

/-- Polling has gone on since the moment `s`, suspensions included: since the start, or since the last
event that ended a suspension. -/
inductive Began : List Event → Nat → Prop
  | start : Began [] 0
  | anew {es : List Event} {e : Event} : Returns es e → Began (es ++ [e]) e.moment
  | still {es : List Event} {e : Event} {s : Nat} :
      Began es s → ¬ Returns es e → Began (es ++ [e]) s

theorem exists_began (es : List Event) : ∃ s, Began es s := by
  induction es using List.reverseRecOn with
  | nil => exact ⟨0, .start⟩
  | append_singleton es e ih =>
    obtain ⟨s, hs⟩ := ih
    by_cases h : Returns es e
    · exact ⟨e.moment, .anew h⟩
    · exact ⟨s, .still hs h⟩

theorem enterRunning_of_returns {es : List Event} {e : Event} (h : Returns es e) :
    after (es ++ [e]) = (after es).enterRunning e.moment := by
  obtain ⟨hs, hrunning⟩ := h
  rw [after_concat] at hrunning ⊢
  cases e with
  | suspend now asked autoDelay => cases hrunning
  | resume now => rw [step, resume, hs]; rfl
  | timer generation now =>
    rw [step, resumeFromTimer] at hrunning ⊢
    split
    · rename_i hstale
      rw [if_pos hstale, hs] at hrunning
      cases hrunning
    · rfl

theorem runStart_of_not_returns {es : List Event} {e : Event} (h : ¬ Returns es e) :
    (after (es ++ [e])).runStart = (after es).runStart := by
  rw [Returns, after_concat] at h
  rw [after_concat]
  obtain ⟨now, asked, autoDelay, rfl, hstep⟩ | ⟨now, -, hs, hstep⟩ | ⟨-, hstep⟩ :=
    step_cases (after es) e
  · rw [hstep]
    rfl
  · rw [hstep] at h
    exact absurd ⟨hs, rfl⟩ h
  · rw [hstep]

/-- The control keeps that moment. -/
theorem Began.runStart {es : List Event} {s : Nat} (h : Began es s) : (after es).runStart = s := by
  induction h with
  | start => rfl
  | anew hreturns =>
    rw [enterRunning_of_returns hreturns]
    rfl
  | still _ hnot ih => rw [runStart_of_not_returns hnot, ih]

/-- As long as polling is suspended, that moment stays. -/
theorem Began.held {es : List Event} {s : Nat} (h : Began es s) {e : Event} {between : List Event}
    (hheld : ∀ k ≤ between.length, (after (es ++ e :: between.take k)).state = .suspended) :
    Began (es ++ e :: between) s := by
  induction between using List.reverseRecOn with
  | nil =>
    refine .still h fun hreturns => ?_
    have hs := hheld 0 (Nat.le_refl _)
    rw [List.take_nil, hreturns.2] at hs
    cases hs
  | append_singleton between last ih =>
    have hinit : Began (es ++ e :: between) s := by
      refine ih fun k hk => ?_
      have hs := hheld k (by simp; omega)
      rwa [List.take_append_of_le_length hk] at hs
    have hlast := hheld (between ++ [last]).length (Nat.le_refl _)
    rw [List.take_length] at hlast
    have hconcat : es ++ e :: (between ++ [last]) = (es ++ e :: between) ++ [last] := by simp
    rw [hconcat] at hlast ⊢
    refine .still hinit fun hreturns => ?_
    rw [hreturns.2] at hlast
    cases hlast

/-- No event came before polling began, and none after the clock. -/
theorem Began.le {es : List Event} {s t : Nat} (h : Began es s) (ht : ∀ e ∈ es, e.moment ≤ t) :
    s ≤ t := by
  induction h with
  | start => exact Nat.zero_le _
  | anew => exact ht _ (by simp)
  | still _ _ ih => exact ih fun e he => ht e (List.mem_append_left _ he)

/-! ## Deadlines -/

/-- In nanoseconds. -/
def hour : Nat := 3600000000000

/-- With `autoDelay` the time given is what is left of the hour that began when polling did. -/
theorem Began.autoDelay {es : List Event} {s : Nat} (h : Began es s) (t : Nat) (asked : RateLimit) :
    ((after es).suspend t asked true).1.nanos = hour - (t - s) := by
  have hwindow : Backoff.renewalWindow.nanos = hour := by decide
  have hlimit : hour < Span.limit := by decide
  simp only [suspend, Backoff.suspension, if_true, Span.nanos_minus, h.runStart, Span.ofNanos]
  omega

/-- After any events: a timer ends a suspension no earlier than the latest suspension has it; without
`autoDelay` the time given is what was asked for; with it, it is what is left of the hour since polling
began, so that all suspensions of a stretch that come within that hour end with it. -/
theorem suspension_deadlines (es : List Event) :
    (∀ generation now, Timed (es ++ [.timer generation now]) → Returns es (.timer generation now) →
      ∃ before t asked autoDelay since, es = before ++ .suspend t asked autoDelay :: since ∧
        (∀ e ∈ since, ¬ e.Suspends) ∧
        t + ((after before).suspend t asked autoDelay).1.nanos ≤ now) ∧
    (∀ t asked, ((after es).suspend t asked false).1 = asked.wait) ∧
    (∃ s, Began es s) ∧
    (∀ s t asked, Began es s → Timed (es ++ [.suspend t asked true]) →
      s ≤ t ∧ ((after es).suspend t asked true).1.nanos = s + hour - t ∧
      ∀ between t' asked',
        (∀ k ≤ between.length,
          (after (es ++ .suspend t asked true :: between.take k)).state = .suspended) →
        Timed (es ++ .suspend t asked true :: between ++ [.suspend t' asked' true]) →
        t' ≤ s + hour →
        t + ((after es).suspend t asked true).1.nanos = s + hour ∧
        t' + ((after (es ++ .suspend t asked true :: between)).suspend t' asked' true).1.nanos =
          s + hour) := by
  refine ⟨fun generation now htimer hreturns => ?_, fun t asked => rfl, exists_began es,
    fun s t asked hs htimed => ?_⟩
  · obtain ⟨before, t, asked, autoDelay, since, hlatest, hdue⟩ :=
      htimer.of_concat.2.not_early hreturns
    exact ⟨before, t, asked, autoDelay, since, hlatest.split, hlatest.last, hdue⟩
  · have hle : s ≤ t := hs.le htimed.of_concat.2.later
    have hwait := hs.autoDelay t asked
    refine ⟨hle, by omega, fun between t' asked' hheld htimed' hwithin => ?_⟩
    have htt' : t ≤ t' := htimed'.of_concat.2.later (.suspend t asked true) (by simp)
    have hwait' := (hs.held hheld).autoDelay t' asked'
    omega

/-- Half a minute is asked for, and then a minute: the first timer goes off in vain. With `autoDelay`,
twenty minutes and half an hour after the start leave forty minutes and half an hour. -/
theorem suspension_deadlines_overtaken :
    let es : List Event := [.suspend 0 ⟨.ofSecs 30⟩ false, .suspend 10 ⟨.ofSecs 60⟩ false,
      .timer 1 30000000000]
    (Timed (es ++ [.timer 2 60000000010]) ∧ Returns es (.timer 2 60000000010) ∧
      ∃ before t asked autoDelay since, es = before ++ .suspend t asked autoDelay :: since ∧
        (∀ e ∈ since, ¬ e.Suspends) ∧
        t + ((after before).suspend t asked autoDelay).1.nanos ≤ 60000000010) ∧
    (1800000000000 + ((after [.suspend 1200000000000 ⟨.ofSecs 5⟩ true]).suspend 1800000000000
      ⟨.ofSecs 90⟩ true).1.nanos = 0 + hour) := by
  intro es
  have htimed : Timed (es ++ [.timer 2 60000000010]) := by
    refine .next (.next (.next (.next .start ⟨?_, ?_⟩) ⟨?_, ?_⟩) ⟨?_, ?_⟩) ⟨?_, ?_⟩
    · simp
    · simp
    · simp [Event.moment]
    · simp
    · simp [Event.moment]
    · intro generation now he
      cases he
      exact ⟨⟨1, 30000000000⟩, (wasSet_suspend [] 0 ⟨.ofSecs 30⟩ false).append _, rfl, Nat.le_refl _⟩
    · simp [es, Event.moment]
    · intro generation now he
      cases he
      exact ⟨⟨2, 60000000010⟩,
        (wasSet_suspend [.suspend 0 ⟨.ofSecs 30⟩ false] 10 ⟨.ofSecs 60⟩ false).append _, rfl,
        Nat.le_refl _⟩
  have hreturns : Returns es (.timer 2 60000000010) := ⟨by decide, by decide⟩
  refine ⟨⟨htimed, hreturns, (suspension_deadlines es).1 _ _ htimed hreturns⟩, ?_⟩
  have hfirst : Timed ([] ++ [.suspend 1200000000000 ⟨.ofSecs 5⟩ true]) :=
    .next .start ⟨by simp, by simp⟩
  have hsecond : Timed ([] ++ .suspend 1200000000000 ⟨.ofSecs 5⟩ true :: [] ++
      [.suspend 1800000000000 ⟨.ofSecs 90⟩ true]) :=
    .next hfirst ⟨by simp [Event.moment], by simp⟩
  obtain ⟨-, -, hstretch⟩ := (suspension_deadlines []).2.2.2 0 1200000000000 ⟨.ofSecs 5⟩ .start hfirst
  exact (hstretch [] 1800000000000 ⟨.ofSecs 90⟩ (fun k _ => by simp; rfl) hsecond (by decide)).2

end FeedPoller.Control
