import FeedPoller.Proofs.Course
import Mathlib.Data.List.Induction

/-! Suspensions and what ends them. Timers that were set before go off at any time, also after they were
called off, so that a control relies on generations alone. Main statement: whatever has happened, a
resume from outside ends the suspension there is, so does the timer of the latest one and no other, and
of all that compete for it one claims it (`suspension_machine`). -/

namespace FeedPoller.Control

/-- What can happen to a control; `timer` is that of a generation going off. -/
inductive Event where
  | suspend (now : Nat) (asked : RateLimit) (autoDelay : Bool)
  | resume (now : Nat)
  | timer (generation now : Nat)

def Event.Suspends : Event → Prop
  | .suspend .. => True
  | _ => False

instance (e : Event) : Decidable e.Suspends :=
  match e with
  | .suspend .. => .isTrue trivial
  | .resume _ | .timer .. => .isFalse id

/-- What an event does and whether it claims to have ended a suspension. -/
def step (c : Control) : Event → Bool × Control
  | .suspend now asked autoDelay => (false, (c.suspend now asked autoDelay).2)
  | .resume now => c.resume now
  | .timer generation now => c.resumeFromTimer generation now

def run (c : Control) (es : List Event) : Control := es.foldl (fun c e => (c.step e).2) c

/-- The control after the events, from its start. -/
def after (es : List Event) : Control := run {} es

/-- What the events claim, one after another. -/
def claims (c : Control) : List Event → List Bool
  | [] => []
  | e :: es => (c.step e).1 :: claims (c.step e).2 es

theorem run_append (c : Control) (es es' : List Event) : c.run (es ++ es') = (c.run es).run es' :=
  List.foldl_append

theorem after_append (es es' : List Event) : after (es ++ es') = (after es).run es' :=
  run_append {} es es'

theorem after_concat (es : List Event) (e : Event) : after (es ++ [e]) = ((after es).step e).2 :=
  after_append es [e]

theorem claims_append (c : Control) (es es' : List Event) :
    claims c (es ++ es') = claims c es ++ claims (c.run es) es' := by
  induction es generalizing c with
  | nil => rfl
  | cons e es ih =>
    rw [List.cons_append, claims, claims, ih, List.cons_append]
    rfl

/-! ## Single steps -/

section Steps

variable (c : Control) (e : Event)

/-- A step suspends, or goes on, or does nothing. -/
theorem step_cases :
    (∃ now asked autoDelay, e = .suspend now asked autoDelay ∧
      c.step e = (false, (c.suspend now asked autoDelay).2)) ∨
    (∃ now, ¬ e.Suspends ∧ c.state = .suspended ∧ c.step e = (true, c.enterRunning now)) ∨
    (¬ e.Suspends ∧ c.step e = (false, c)) := by
  cases e with
  | suspend now asked autoDelay => exact .inl ⟨now, asked, autoDelay, rfl, rfl⟩
  | resume now =>
    cases hs : c.state with
    | running => exact .inr (.inr ⟨id, by rw [step, resume, hs]⟩)
    | suspended => exact .inr (.inl ⟨now, id, rfl, by rw [step, resume, hs]⟩)
  | timer generation now =>
    by_cases h : c.state = .running ∨ c.generation ≠ generation
    · exact .inr (.inr ⟨id, by rw [step, resumeFromTimer, if_pos h]⟩)
    · have hs : c.state = .suspended := by
        cases hs : c.state with
        | running => exact absurd (.inl hs) h
        | suspended => rfl
      exact .inr (.inl ⟨now, id, hs, by rw [step, resumeFromTimer, if_neg h]⟩)

/-- Whatever has an effect has a generation of its own. -/
theorem step_generation :
    if e.Suspends ∨ (c.step e).2.state ≠ c.state then c.generation < (c.step e).2.generation
    else (c.step e).2 = c := by
  obtain ⟨now, asked, autoDelay, rfl, h⟩ | ⟨now, -, hs, h⟩ | ⟨he, h⟩ := step_cases c e
  · rw [if_pos (.inl trivial), h]
    exact Nat.lt_succ_self _
  · rw [if_pos (.inr (by simp [h, hs, enterRunning])), h]
    exact Nat.lt_succ_self _
  · rw [if_neg (by simp [he, h]), h]

variable {c e}

theorem step_eq_self (he : ¬ e.Suspends) (hs : (c.step e).2.state = c.state) :
    (c.step e).2 = c := by
  have h := step_generation c e
  rwa [if_neg (by simp [he, hs])] at h

/-- A suspension is ended by whoever claims it, and by no one else. -/
theorem step_claim_iff :
    (c.step e).1 = true ↔ c.state = .suspended ∧ (c.step e).2.state = .running := by
  obtain ⟨now, asked, autoDelay, rfl, h⟩ | ⟨now, -, hs, h⟩ | ⟨he, h⟩ := step_cases c e
  · simp [h, suspend]
  · simp [h, hs, enterRunning]
  · rw [h]
    cases hs : c.state <;> simp

theorem timer_claim_iff {generation now : Nat} :
    (c.step (.timer generation now)).1 = true ↔ c.state = .suspended ∧ c.generation = generation := by
  rw [step, resumeFromTimer]
  cases hs : c.state with
  | running => simp
  | suspended => by_cases hg : c.generation = generation <;> simp [hg]

/-- A resume from outside claims whatever suspension there is. -/
theorem resume_claim_iff {now : Nat} : (c.step (.resume now)).1 = true ↔ c.state = .suspended := by
  rw [step, resume]
  cases hs : c.state <;> simp

theorem resume_state {now : Nat} : (c.step (.resume now)).2.state = .running := by
  rw [step, resume]
  cases hs : c.state with
  | running => exact hs
  | suspended => rfl

/-- Where polling goes on, only a suspension stops it. -/
theorem step_of_running (he : ¬ e.Suspends) (hs : c.state = .running) : c.step e = (false, c) := by
  obtain ⟨now, asked, autoDelay, rfl, -⟩ | ⟨now, -, hs', -⟩ | ⟨-, h⟩ := step_cases c e
  · exact absurd trivial he
  · rw [hs] at hs'
    cases hs'
  · exact h

end Steps

/-! ## Whole runs -/

/-- The timer is set and the gauge is up while polling is suspended. -/
structure Signalled (c : Control) : Prop where
  timer : c.timer.isSome ↔ c.state = .suspended
  gauge : c.gauge = some true ↔ c.state = .suspended

theorem Signalled.step {c : Control} (h : c.Signalled) (e : Event) : (c.step e).2.Signalled := by
  obtain ⟨now, asked, autoDelay, rfl, he⟩ | ⟨now, -, -, he⟩ | ⟨-, he⟩ := step_cases c e
  · rw [he]
    exact ⟨by simp [suspend], by simp [suspend]⟩
  · rw [he]
    exact ⟨by simp [enterRunning], by simp [enterRunning]⟩
  · rw [he]
    exact h

theorem signalled_after (es : List Event) : (after es).Signalled := by
  induction es using List.reverseRecOn with
  | nil => exact ⟨by simp [after, run], by simp [after, run]⟩
  | append_singleton es e ih =>
    rw [after_concat]
    exact ih.step e

/-- The generation is that of the latest suspension, and polling has not gone on since. -/
def Pending (es : List Event) (generation : Nat) : Prop :=
  ∃ before e since, es = before ++ e :: since ∧ e.Suspends ∧
    generation = (after (before ++ [e])).generation ∧ (∀ e' ∈ since, ¬ e'.Suspends) ∧
      ∀ k ≤ since.length, (after (before ++ e :: since.take k)).state = .suspended

theorem Pending.concat {es : List Event} {generation : Nat} (h : Pending es generation) {e : Event}
    (he : ¬ e.Suspends) (hs : (after (es ++ [e])).state = .suspended) :
    Pending (es ++ [e]) generation := by
  obtain ⟨before, e₀, since, rfl, he₀, hg, hsince, hstate⟩ := h
  refine ⟨before, e₀, since ++ [e], by simp, he₀, hg, fun e' he' => ?_, fun k hk => ?_⟩
  · obtain he' | he' := List.mem_append.mp he'
    · exact hsince e' he'
    · rw [List.mem_singleton.mp he']
      exact he
  · obtain hk | hk := Nat.lt_or_ge since.length k
    · have hall : (since ++ [e]).take k = since ++ [e] := List.take_of_length_le (by simp; omega)
      rw [hall]
      simpa using hs
    · rw [List.take_append_of_le_length hk]
      exact hstate k hk

/-- While polling is suspended, the generation at hand is the one that is pending. -/
theorem pending_generation {es : List Event} (hs : (after es).state = .suspended) :
    Pending es (after es).generation := by
  induction es using List.reverseRecOn with
  | nil => cases hs
  | append_singleton es e ih =>
    by_cases he : e.Suspends
    · exact ⟨es, e, [], rfl, he, rfl, by simp, fun k _ => by simpa using hs⟩
    · -- had the step gone on, polling would not be suspended now
      have hsame : ((after es).step e).2 = after es := by
        rw [after_concat] at hs
        obtain ⟨_, _, _, rfl, -⟩ | ⟨_, -, -, h⟩ | ⟨-, h⟩ := step_cases (after es) e
        · exact absurd trivial he
        · rw [h] at hs
          cases hs
        · rw [h]
      have hes : after (es ++ [e]) = after es := by rw [after_concat, hsame]
      have hpending := ih (hes ▸ hs)
      rw [← hes] at hpending
      exact hpending.concat he hs

/-- Since the latest suspension nothing has changed. -/
theorem after_since {before since : List Event} {e : Event} (hsince : ∀ e' ∈ since, ¬ e'.Suspends)
    (hstate : ∀ k ≤ since.length, (after (before ++ e :: since.take k)).state = .suspended) :
    after (before ++ e :: since) = after (before ++ [e]) := by
  induction since using List.reverseRecOn with
  | nil => rfl
  | append_singleton since last ih =>
    have hinit : after (before ++ e :: since) = after (before ++ [e]) := by
      refine ih (fun e' he' => hsince e' (by simp [he'])) fun k hk => ?_
      have h := hstate k (by simp; omega)
      rwa [List.take_append_of_le_length hk] at h
    have hbefore := hstate since.length (by simp)
    have hlast := hstate (since ++ [last]).length (Nat.le_refl _)
    rw [List.take_append_of_le_length (Nat.le_refl _), List.take_length] at hbefore
    rw [List.take_length] at hlast
    have hconcat : before ++ e :: (since ++ [last]) = (before ++ e :: since) ++ [last] := by simp
    rw [hconcat, after_concat] at hlast ⊢
    rw [step_eq_self (hsince last (by simp)) (hlast.trans hbefore.symm), hinit]

theorem Pending.eq {es : List Event} {generation : Nat} (h : Pending es generation) :
    (after es).state = .suspended ∧ generation = (after es).generation := by
  obtain ⟨before, e, since, rfl, -, rfl, hsince, hstate⟩ := h
  have hlast := hstate since.length (Nat.le_refl _)
  rw [List.take_length] at hlast
  exact ⟨hlast, by rw [after_since hsince hstate]⟩

/-! ## Stretches -/

/-- Between `before` and `late`, polling is suspended from the first event of `held` to `last`; `late`
are more events up to the next suspension. -/
structure Stretch (before held : List Event) (last : Event) (late : List Event) : Prop where
  begins : (after before).state = .running
  nonempty : held ≠ []
  suspended : ∀ k < held.length, (after (before ++ held.take (k + 1))).state = .suspended
  ends : (after (before ++ held ++ [last])).state = .running
  goesOn : ∀ e ∈ late, ¬ e.Suspends

theorem claims_held {c : Control} {held : List Event}
    (h : ∀ k < held.length, (c.run (held.take (k + 1))).state = .suspended) :
    c.claims held = List.replicate held.length false := by
  induction held generalizing c with
  | nil => rfl
  | cons e held ih =>
    have hhead : (c.step e).2.state = .suspended := h 0 (by simp)
    have hclaim : (c.step e).1 = false := by
      rw [Bool.eq_false_iff, ne_eq, step_claim_iff, hhead]
      simp
    have htail := ih fun k hk => h (k + 1) (by simpa using hk)
    rw [claims, hclaim, htail]
    rfl

theorem claims_late {c : Control} {late : List Event} (hs : c.state = .running)
    (h : ∀ e ∈ late, ¬ e.Suspends) : c.claims late = List.replicate late.length false := by
  induction late with
  | nil => rfl
  | cons e late ih =>
    have hstep := step_of_running (h e (List.mem_cons_self ..)) hs
    rw [claims, hstep, ih fun e' he' => h e' (List.mem_cons_of_mem _ he')]
    rfl

/-- Of all that might end a suspension, one event claims it. -/
theorem Stretch.claims {before held late : List Event} {last : Event}
    (h : Stretch before held last late) : (after before).claims (held ++ last :: late) =
      List.replicate held.length false ++ true :: List.replicate late.length false := by
  have hheld : (after before).claims held = List.replicate held.length false := by
    refine claims_held fun k hk => ?_
    rw [← after_append]
    exact h.suspended k hk
  have hstate : ((after before).run held).state = .suspended := by
    have hpos : 0 < held.length := List.length_pos_iff.mpr h.nonempty
    have hall := h.suspended (held.length - 1) (by omega)
    rwa [Nat.sub_add_cancel hpos, List.take_length, after_append] at hall
  have hends := h.ends
  rw [after_concat, after_append] at hends
  have hlast : (((after before).run held).step last).1 = true := step_claim_iff.mpr ⟨hstate, hends⟩
  rw [claims_append, hheld, Control.claims, hlast, claims_late hends h.goesOn]

/-- After any events: which of the next ones have an effect, which timer counts, what it means that a
suspension is claimed, whose claim that is, and what shows. A suspension is begun whenever it is asked
for, and a resume from outside ends whichever there is. -/
theorem suspension_machine (es : List Event) :
    (∀ e, if e.Suspends ∨ (after (es ++ [e])).state ≠ (after es).state
      then (after es).generation < (after (es ++ [e])).generation
      else after (es ++ [e]) = after es) ∧
    (∀ generation now, ((after es).step (.timer generation now)).1 = true ↔
      (after es).state = .suspended ∧ Pending es generation) ∧
    (∀ now, (((after es).step (.resume now)).1 = true ↔ (after es).state = .suspended) ∧
      (after (es ++ [.resume now])).state = .running) ∧
    (∀ now asked autoDelay, (after (es ++ [.suspend now asked autoDelay])).state = .suspended) ∧
    (∀ e, ((after es).step e).1 = true ↔
      (after es).state = .suspended ∧ (after (es ++ [e])).state = .running) ∧
    (∀ held last late, Stretch es held last late → (after es).claims (held ++ last :: late) =
      List.replicate held.length false ++ true :: List.replicate late.length false) ∧
    ((after es).timer.isSome ↔ (after es).state = .suspended) ∧
    ((after es).gauge = some true ↔ (after es).state = .suspended) := by
  have hsignalled := signalled_after es
  refine ⟨fun e => ?_, fun generation now => ?_, fun now => ⟨resume_claim_iff, ?_⟩,
    fun now asked autoDelay => ?_, fun e => ?_, fun _ _ _ h => h.claims, hsignalled.timer,
    hsignalled.gauge⟩
  · rw [after_concat]
    exact step_generation _ e
  · rw [timer_claim_iff]
    constructor
    · rintro ⟨hs, rfl⟩
      exact ⟨hs, pending_generation hs⟩
    · rintro ⟨hs, h⟩
      exact ⟨hs, h.eq.2.symm⟩
  · rw [after_concat]
    exact resume_state
  · rw [after_concat]
    rfl
  · rw [after_concat]
    exact step_claim_iff

/-- Polling is suspended twice; the timer of the first suspension goes off late, that of the second
ends both, and a call that comes after it finds nothing to do. Then it is suspended once more, and a call
ends that: neither a second call nor the timer has anything left to end. -/
theorem suspension_machine_twice :
    let first : Event := .suspend 0 ⟨.ofSecs 30⟩ false
    let second : Event := .suspend 10 ⟨.ofSecs 60⟩ false
    let third : Event := .suspend 80 ⟨.ofSecs 5⟩ false
    let before := [first, second, .timer 1 30, .timer 2 70, .resume 71, .timer 2 72]
    Stretch [] [first, second, .timer 1 30] (.timer 2 70) [.resume 71, .timer 2 72] ∧
      claims (after []) before = [false, false, false, true, false, false] ∧
      Stretch before [third] (.resume 82) [.resume 82, .timer 4 85] ∧
      claims (after before) [third, .resume 82, .resume 82, .timer 4 85] =
        [false, true, false, false] ∧
      ((after (before ++ [third])).step (.resume 82)).1 = true ∧
      (after (before ++ [third, .resume 82])).state = .running := by
  intro first second third before
  have htimer : Stretch [] [first, second, .timer 1 30] (.timer 2 70) [.resume 71, .timer 2 72] :=
    ⟨rfl, by simp, by decide, rfl, by decide⟩
  have hresume : Stretch before [third] (.resume 82) [.resume 82, .timer 4 85] :=
    ⟨rfl, by simp, by decide, rfl, by decide⟩
  obtain ⟨-, -, -, -, -, hfirst, -⟩ := suspension_machine []
  obtain ⟨-, -, -, -, -, hthird, -⟩ := suspension_machine before
  obtain ⟨-, -, hwins, -⟩ := suspension_machine (before ++ [third])
  obtain ⟨hclaim, hrunning⟩ := hwins 82
  exact ⟨htimer, hfirst _ _ _ htimer, hresume, hthird _ _ _ hresume, hclaim.mpr rfl, hrunning⟩

/-! ## The control of a poller -/

variable {σ : Type} {p : Poller} {b : Backend σ}

theorem run_of_perform (w : World σ) (action : Action) :
    ∃ es, (w.perform p b action).2.control = w.control.run es := by
  cases action with
  | resume => exact ⟨[.resume w.now], rfl⟩
  | suspend asked => exact ⟨[.suspend w.now asked p.settings.autoDelay], rfl⟩
  | _ => exact ⟨[], rfl⟩

theorem run_of_meanwhile {moves : σ → σ → Prop} {w w' : World σ} (h : Meanwhile moves w w') :
    ∃ es, w'.control = w.control.run es := by
  cases h with
  | resume => exact ⟨[.resume w.now], rfl⟩
  | timer generation => exact ⟨[.timer generation w.now], rfl⟩
  | time | backend => exact ⟨[], rfl⟩

/-- Whatever operations there are, side by side or in turn, the control goes through a run of its own. -/
theorem after_of_reached {R : Rules p b} {rule : Sink.Rule} {s : σ} {c : Course σ}
    (h : R.Reached rule s c) : ∃ es, c.world.control = after es := by
  obtain ⟨w, hw, hl⟩ := h
  obtain ⟨-, backend, rfl⟩ := World.init_eq_ok hw
  induction hl with
  | refl => exact ⟨[], rfl⟩
  | @tail c c' _ hs ih =>
    obtain ⟨es, hes⟩ := ih
    have hrun : ∃ es', c'.world.control = c.world.control.run es' := by
      cases hs with
      | begin => exact ⟨[], rfl⟩
      | act => exact run_of_perform ..
      | meanwhile hw => exact run_of_meanwhile hw
    obtain ⟨es', hes'⟩ := hrun
    exact ⟨es ++ es', by rw [hes', hes, after_append]⟩

end FeedPoller.Control
