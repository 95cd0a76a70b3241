import FeedPoller.Backend.Script
import FeedPoller.Proofs.Deadlines
import FeedPoller.Proofs.Terms

/-! Statuses while other things happen. A status looks at the state first and at the generation after
that; each look is one step, and before, between and after them polling may be suspended or go on. Main
statement: what a status tells of the two is what the control had at one moment of the call just when
polling was in the same state at both looks (`status_snapshot_iff`). -/

namespace FeedPoller

variable {σ α : Type} {p : Poller} {b : Backend σ}

/-! ## Generations tell controls apart -/

namespace Control

variable {c : Control} {es es' : List Event}

theorem generation_le_run (c : Control) (es : List Event) : c.generation ≤ (c.run es).generation := by
  induction es generalizing c with
  | nil => exact Nat.le_refl _
  | cons e es ih => exact Nat.le_trans (generation_le_step c e) (ih (c.step e).2)

/-- Events that end with the generation they began with have done nothing. -/
theorem run_eq_self (h : (c.run es).generation = c.generation) : c.run es = c := by
  induction es generalizing c with
  | nil => rfl
  | cons e es ih =>
    have hcons : c.run (e :: es) = (c.step e).2.run es := rfl
    have hrest := generation_le_run (c.step e).2 es
    have hstep := step_generation c e
    rw [hcons] at h ⊢
    split at hstep
    · -- after an event that has an effect, the generation never comes back
      omega
    · rw [hstep] at h ⊢
      exact ih h

/-- At two moments of one run with the same generation, the control is the same. -/
theorem run_eq_of_isPrefix {all : List Event} (h : es <+: all) (h' : es' <+: all)
    (hg : (c.run es).generation = (c.run es').generation) : c.run es = c.run es' := by
  obtain ⟨since, rfl⟩ | ⟨since, rfl⟩ := List.prefix_or_prefix_of_prefix h h'
  · rw [run_append] at hg ⊢
    exact (run_eq_self hg.symm).symm
  · rw [run_append] at hg ⊢
    exact run_eq_self hg

end Control

/-! ## Calls under way -/

/-- A call under way: the world at hand and what is left of its plan. -/
structure Underway (σ α : Type) where
  world : World σ
  plan : Plan α

namespace Underway

/-- What comes next: something happens to the control, or the call does its next action. -/
inductive Turn where
  | event (e : Control.Event)
  | act

/-- An action of the call is one step, as an event of the control is. -/
def turn (p : Poller) (b : Backend σ) (u : Underway σ α) : Turn → Underway σ α
  | .event e => { u with world.control := (u.world.control.step e).2 }
  | .act =>
    match u.plan with
    | .done _ => u
    | .act action next =>
      let (answer, world) := u.world.perform p b action
      ⟨world, next answer.value⟩

def after (p : Poller) (b : Backend σ) (u : Underway σ α) (turns : List Turn) : Underway σ α :=
  turns.foldl (turn p b) u

def result? (u : Underway σ α) : Option α :=
  match u.plan with
  | .done a => some a
  | .act .. => none

/-- The turns are those of the whole call, up to the one that gives its result. -/
structure Spans (p : Poller) (b : Backend σ) (u : Underway σ α) (turns : List Turn) (a : α) :
    Prop where
  ends : (u.after p b turns).result? = some a
  underway : ∀ k < turns.length, (u.after p b (turns.take k)).result? = none

/-- The control after so many turns. -/
def controlAt (p : Poller) (b : Backend σ) (u : Underway σ α) (turns : List Turn) (k : Nat) :
    Control := (u.after p b (turns.take k)).world.control

/-- What happens to the control. -/
def events (turns : List Turn) : List Control.Event :=
  turns.filterMap fun
    | .event e => some e
    | .act => none

/-- What happens to it before an action of the call; the first one is number 0. -/
def eventsBefore : Nat → List Turn → List Control.Event
  | _, [] => []
  | n, .event e :: turns => e :: eventsBefore n turns
  | 0, .act :: _ => []
  | n + 1, .act :: turns => eventsBefore n turns

theorem exists_moment (n : Nat) (turns : List Turn) :
    ∃ k ≤ turns.length, events (turns.take k) = eventsBefore n turns := by
  induction turns generalizing n with
  | nil => exact ⟨0, Nat.le_refl _, rfl⟩
  | cons t turns ih =>
    cases t with
    | event e =>
      obtain ⟨k, hk, hevents⟩ := ih n
      exact ⟨k + 1, Nat.succ_le_succ hk, congrArg (e :: ·) hevents⟩
    | act =>
      cases n with
      -- the moment is the one at which the action comes, before it is done
      | zero => exact ⟨0, Nat.zero_le _, rfl⟩
      | succ n =>
        obtain ⟨k, hk, hevents⟩ := ih n
        exact ⟨k + 1, Nat.succ_le_succ hk, hevents⟩

theorem events_take_isPrefix (turns : List Turn) (k : Nat) : events (turns.take k) <+: events turns :=
  (turns.take_prefix k).filterMap _

theorem eventsBefore_isPrefix (n : Nat) (turns : List Turn) : eventsBefore n turns <+: events turns := by
  obtain ⟨k, -, hevents⟩ := exists_moment n turns
  exact hevents ▸ events_take_isPrefix turns k

theorem Spans.tail {u : Underway σ α} {t : Turn} {turns : List Turn} {a : α}
    (h : Spans p b u (t :: turns) a) : Spans p b (u.turn p b t) turns a :=
  ⟨h.ends, fun k hk => h.underway (k + 1) (Nat.succ_lt_succ hk)⟩

theorem Spans.of_done {w : World σ} {a a' : α} {turns : List Turn}
    (h : Spans p b ⟨w, .done a⟩ turns a') : a' = a := by
  cases turns with
  | nil => exact (Option.some.inj h.ends).symm
  | cons t turns => cases h.underway 0 (Nat.zero_lt_succ _)

/-- The first action of a call is done in the world that the events before it leave. -/
theorem Spans.of_act {w : World σ} {action : Action} {next : action.Reply → Plan α} {a : α}
    {turns : List Turn} (h : Spans p b ⟨w, .act action next⟩ turns a) :
    let w' := { w with control := w.control.run (eventsBefore 0 turns) }
    ∃ rest, (∀ n, eventsBefore (n + 1) turns = eventsBefore 0 turns ++ eventsBefore n rest) ∧
      Spans p b ⟨(w'.perform p b action).2, next (w'.perform p b action).1.value⟩ rest a := by
  induction turns generalizing w with
  | nil => cases h.ends
  | cons t turns ih =>
    cases t with
    | event e =>
      obtain ⟨rest, hbefore, hrest⟩ := ih h.tail
      exact ⟨rest, fun n => congrArg (e :: ·) (hbefore n), hrest⟩
    | act => exact ⟨turns, fun _ => rfl, h.tail⟩

end Underway

/-! ## Statuses -/

/-- An action that only looks. -/
def Action.IsLook : Action → Prop
  | .state | .generation | .authRequired => True
  | _ => False

theorem Action.IsLook.perform {action : Action} (h : action.IsLook) (w : World σ) :
    (w.perform p b action).2 = w := by
  cases action with
  | state | generation | authRequired => rfl
  | _ => exact h.elim

open Underway

theorem Plan.Only.control_after {plan : Plan α} (h : plan.Only Action.IsLook) (w : World σ)
    (turns : List Turn) :
    (after p b ⟨w, plan⟩ turns).world.control = w.control.run (events turns) := by
  induction turns generalizing w plan with
  | nil => rfl
  | cons t turns ih =>
    cases t with
    | event e => exact ih h { w with control := (w.control.step e).2 }
    | act =>
      cases plan with
      | done a => exact ih h w
      | act action next =>
        obtain ⟨hlook, hnext⟩ := h
        refine (ih (hnext (w.perform p b action).1.value) (w.perform p b action).2).trans ?_
        rw [hlook.perform]
        rfl

namespace Poller

theorem status_only (p : Poller) : p.status.Only Action.IsLook :=
  (Plan.Only.one trivial).bind fun _ => (Plan.Only.one trivial).bind fun _ =>
    (Plan.Only.one trivial).bind fun _ => trivial

theorem controlAt_status (w : World σ) (turns : List Turn) (k : Nat) :
    controlAt p b ⟨w, p.status⟩ turns k = w.control.run (events (turns.take k)) :=
  p.status_only.control_after w (turns.take k)

/-- A status tells the state at its first look and the generation at its second. -/
theorem looks_of_spans {w : World σ} {turns : List Turn} {s : Status}
    (h : Spans p b ⟨w, p.status⟩ turns s) :
    s.state = (w.control.run (eventsBefore 0 turns)).state ∧
      s.generation = (w.control.run (eventsBefore 1 turns)).generation := by
  obtain ⟨rest, hbefore, hrest⟩ := h.of_act
  obtain ⟨rest', -, hrest'⟩ := hrest.of_act
  obtain ⟨_, -, hdone⟩ := hrest'.of_act
  obtain rfl := hdone.of_done
  refine ⟨rfl, ?_⟩
  rw [hbefore 0, Control.run_append]
  rfl

/-- At one moment of a call that takes these turns, the control has both the state and the generation
that a status tells. -/
def IsSnapshot (p : Poller) (b : Backend σ) (w : World σ) (turns : List Turn) (s : Status) : Prop :=
  ∃ k ≤ turns.length, (controlAt p b ⟨w, p.status⟩ turns k).state = s.state ∧
    (controlAt p b ⟨w, p.status⟩ turns k).generation = s.generation

/-- Whatever happens to the control before, between and after the looks of a status: it is a snapshot
just when polling is suspended, or goes on, at the second look as at the first. -/
theorem status_snapshot_iff {w : World σ} {turns : List Turn} {s : Status}
    (h : Spans p b ⟨w, p.status⟩ turns s) :
    p.IsSnapshot b w turns s ↔
      (w.control.run (eventsBefore 0 turns)).state =
        (w.control.run (eventsBefore 1 turns)).state := by
  obtain ⟨hstate, hgeneration⟩ := looks_of_spans h
  constructor
  · rintro ⟨k, -, hstate', hgeneration'⟩
    rw [controlAt_status] at hstate' hgeneration'
    -- the moment has the generation of the second look, so it has its state too
    have hsame := Control.run_eq_of_isPrefix (events_take_isPrefix turns k)
      (eventsBefore_isPrefix 1 turns) (hgeneration'.trans hgeneration)
    rw [← hsame, hstate', hstate]
  · intro hsame
    obtain ⟨k, hk, hevents⟩ := exists_moment 1 turns
    refine ⟨k, hk, ?_, ?_⟩
    · rw [controlAt_status, hevents, hstate, hsame]
    · rw [controlAt_status, hevents, hgeneration]

/-! ## Suspensions between the looks -/

/-- A poller with the settings that it has by default. -/
def plain : Poller where
  settings := {}
  background := {}

/-- Its world as it begins. -/
def begun : World Script where
  backend := { created := 1 }
  history := .new 200 false

def limitedAt (now : Nat) : Turn := .event (.suspend now ⟨.ofSecs 30⟩ false)

/-- Suspended before the first look and anew before the second: the status tells the second
suspension. -/
theorem suspendedAnew_snapshot :
    World.init plain Script.backend {} {} = .ok begun ∧
      Spans plain Script.backend ⟨begun, plain.status⟩
        [limitedAt 0, .act, limitedAt 10, .act, .act] ⟨.suspended, 2, false, .ofSecs 60⟩ ∧
      plain.IsSnapshot Script.backend begun [limitedAt 0, .act, limitedAt 10, .act, .act]
        ⟨.suspended, 2, false, .ofSecs 60⟩ := by
  have hspans : Spans plain Script.backend ⟨begun, plain.status⟩
      [limitedAt 0, .act, limitedAt 10, .act, .act] ⟨.suspended, 2, false, .ofSecs 60⟩ :=
    ⟨by decide, by decide⟩
  exact ⟨rfl, hspans, (status_snapshot_iff hspans).mpr rfl⟩

/-- Suspended between the looks: the status tells that polling goes on in the generation in which it is
suspended. -/
theorem suspendedBetween_torn :
    World.init plain Script.backend {} {} = .ok begun ∧
      Spans plain Script.backend ⟨begun, plain.status⟩ [.act, limitedAt 0, .act, .act]
        ⟨.running, 1, false, .ofSecs 60⟩ ∧
      ¬ plain.IsSnapshot Script.backend begun [.act, limitedAt 0, .act, .act]
        ⟨.running, 1, false, .ofSecs 60⟩ := by
  refine ⟨rfl, ⟨by decide, by decide⟩, ?_⟩
  rintro ⟨k, hk, hstate, hgeneration⟩
  have hnever : ∀ k ≤ 4,
      ¬ ((controlAt plain Script.backend ⟨begun, plain.status⟩
          [.act, limitedAt 0, .act, .act] k).state = .running ∧
        (controlAt plain Script.backend ⟨begun, plain.status⟩
          [.act, limitedAt 0, .act, .act] k).generation = 1) := by
    decide
  exact hnever k hk ⟨hstate, hgeneration⟩

end Poller
end FeedPoller
