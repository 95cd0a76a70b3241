import FeedPoller.Clockwork
import FeedPoller.Proofs.Deadlines
import Mathlib.Data.List.Basic

/-! Jobs beside each other, in any order. In a turn one job goes on up to its next wait, or a caller's
plan does, or time passes and some of the jobs that are due can go on, or the feed changes. Main
statements: what a clockwork does by itself are such turns, in an order of its own (`Run.runUntil`,
`Run.runStep`, `Run.runSpawned`). -/

namespace FeedPoller

variable {σ ρ α : Type} {p : Poller} {b : Backend σ}

/-! ## A plan up to its next wait -/

/-- The actions of a plan up to its next wait, each with the world it is done in. -/
def World.deeds (p : Poller) (b : Backend σ) : Plan α → World σ → List (World σ × Action)
  | .done _, _ => []
  | .act action next, w =>
    (w, action) ::
      match (w.perform p b action).1.wait with
      | some (_ + 1) => []
      | _ => deeds p b (next (w.perform p b action).1.value) (w.perform p b action).2

/-- What an action is to the control, if it concerns it. -/
def eventOf (p : Poller) : World σ × Action → Option Control.Event
  | (w, .suspend asked) => some (.suspend w.now asked p.settings.autoDelay)
  | (w, .resume) => some (.resume w.now)
  | _ => none

/-- What a plan does to the control up to its next wait. -/
def World.events (p : Poller) (b : Backend σ) (plan : Plan α) (w : World σ) : List Control.Event :=
  (w.deeds p b plan).filterMap (eventOf p)

/-- After an action the plan waits. -/
structure World.Waits (p : Poller) (b : Backend σ) (w : World σ) (action : Action) (ms : Nat) :
    Prop where
  advance {α : Type} (next : action.Reply → Plan α) (opened : List PathId) :
    w.advance p b (.act action next) opened =
      (.waiting ms (next (w.perform p b action).1.value),
        openAfter action (w.perform p b action).1.value opened, (w.perform p b action).2)
  deeds {α : Type} (next : action.Reply → Plan α) : w.deeds p b (.act action next) = [(w, action)]

/-- After an action the plan goes on at once. -/
structure World.GoesOn (p : Poller) (b : Backend σ) (w : World σ) (action : Action) : Prop where
  advance {α : Type} (next : action.Reply → Plan α) (opened : List PathId) :
    w.advance p b (.act action next) opened =
      (w.perform p b action).2.advance p b (next (w.perform p b action).1.value)
        (openAfter action (w.perform p b action).1.value opened)
  deeds {α : Type} (next : action.Reply → Plan α) :
    w.deeds p b (.act action next) =
      (w, action) :: (w.perform p b action).2.deeds p b (next (w.perform p b action).1.value)

theorem World.goesOn_of_wait {w : World σ} {action : Action}
    (h : (w.perform p b action).1.wait = none) : w.GoesOn p b action where
  advance next opened := by simp only [World.advance, h]
  deeds next := by simp only [World.deeds, h]

theorem World.waits_or_goesOn (p : Poller) (b : Backend σ) (w : World σ) (action : Action) :
    (∃ ms, w.Waits p b action ms) ∨ w.GoesOn p b action := by
  rcases hwait : (w.perform p b action).1.wait with _ | _ | ms
  · exact .inr (goesOn_of_wait hwait)
  · refine .inr ⟨fun next opened => ?_, fun next => ?_⟩
    · simp only [World.advance, hwait]
    · simp only [World.deeds, hwait]
  · refine .inl ⟨ms + 1, fun next opened => ?_, fun next => ?_⟩
    · simp only [World.advance, hwait]
    · simp only [World.deeds, hwait]

theorem World.now_perform (w : World σ) (action : Action) : (w.perform p b action).2.now = w.now := by
  cases action <;> rfl

theorem World.control_perform (w : World σ) (action : Action) :
    (w.perform p b action).2.control = w.control.run (eventOf p (w, action)).toList := by
  cases action <;> rfl

/-- No time passes before the next wait. -/
theorem World.now_advance (w : World σ) (plan : Plan α) (opened : List PathId) :
    (w.advance p b plan opened).2.2.now = w.now := by
  induction plan generalizing w opened with
  | done a => rfl
  | act action next ih =>
    rw [← w.now_perform (p := p) (b := b) action]
    obtain ⟨ms, h⟩ | h := w.waits_or_goesOn p b action
    · rw [h.advance]
    · rw [h.advance, ih]

theorem World.control_advance (w : World σ) (plan : Plan α) (opened : List PathId) :
    (w.advance p b plan opened).2.2.control = w.control.run (w.events p b plan) := by
  induction plan generalizing w opened with
  | done a => rfl
  | act action next ih =>
    obtain ⟨ms, h⟩ | h := w.waits_or_goesOn p b action
    · rw [h.advance, events, h.deeds, control_perform, List.filterMap_eq_flatMap_toList,
        List.flatMap_singleton]
    · rw [h.advance, ih, control_perform, events, events, h.deeds,
        List.filterMap_eq_flatMap_toList, List.filterMap_eq_flatMap_toList, List.flatMap_cons]
      exact (Control.run_append ..).symm

theorem World.now_of_mem_deeds {w : World σ} {plan : Plan α} {d : World σ × Action}
    (hd : d ∈ w.deeds p b plan) : d.1.now = w.now := by
  induction plan generalizing w with
  | done a => cases hd
  | act action next ih =>
    obtain ⟨ms, h⟩ | h := w.waits_or_goesOn p b action
    · rw [h.deeds] at hd
      rw [List.mem_singleton.mp hd]
    · rw [h.deeds] at hd
      rcases List.mem_cons.mp hd with rfl | hd
      · rfl
      · rw [ih _ hd, now_perform]

/-- All that a plan does to the control it does at once, and none of it is a timer. -/
theorem World.of_mem_events {w : World σ} {plan : Plan α} {e : Control.Event}
    (h : e ∈ w.events p b plan) :
    e.moment = w.now ∧ ∀ generation now, e ≠ .timer generation now := by
  obtain ⟨⟨w', action⟩, hd, he⟩ := List.mem_filterMap.mp h
  have hnow : w'.now = w.now := now_of_mem_deeds hd
  cases action with
  | suspend asked =>
    cases he
    exact ⟨hnow, by simp⟩
  | resume =>
    cases he
    exact ⟨hnow, by simp⟩
  | _ => cases he

/-- What a plan comes to is left out, and nothing else. -/
theorem World.advance_discard (w : World σ) (plan : Plan α) (opened : List PathId) :
    w.advance p b (discard plan) opened =
      match w.advance p b plan opened with
      | (.finished _, opened, w) => (.finished (), opened, w)
      | (.waiting ms rest, opened, w) => (.waiting ms (discard rest), opened, w) := by
  induction plan generalizing w opened with
  | done a => rfl
  | act action next ih =>
    have hact : discard (Plan.act action next) = .act action fun r => discard (next r) := rfl
    rw [hact]
    obtain ⟨ms, h⟩ | h := w.waits_or_goesOn p b action
    · rw [h.advance, h.advance]
    · rw [h.advance, h.advance, ih]

theorem World.deeds_discard (w : World σ) (plan : Plan α) :
    w.deeds p b (discard plan) = w.deeds p b plan := by
  induction plan generalizing w with
  | done a => rfl
  | act action next ih =>
    have hact : discard (Plan.act action next) = .act action fun r => discard (next r) := rfl
    rw [hact]
    obtain ⟨ms, h⟩ | h := w.waits_or_goesOn p b action
    · rw [h.deeds, h.deeds]
    · rw [h.deeds, h.deeds, ih]

/-! ## Turns -/

/-- What a job does to the control. -/
def Job.events (p : Poller) (b : Backend σ) (w : World σ) : Job ρ → List Control.Event
  | .arm t => if t.deadline ≤ w.now then [.timer t.generation w.now] else []
  | .resume generation => [.timer generation w.now]
  | .tick .. => w.events p b (discard p.tick)
  | .cycle _ _ rest _ => w.events p b rest
  | .spawned _ rest _ => w.events p b rest

namespace Clockwork

/-- What can happen next, and what it does to the control. Plans that are asked for from outside go on
at any time; so do all jobs in the queue, and those that wait once they are due. -/
inductive Turn (p : Poller) (b : Backend σ) (c : Clockwork σ ρ) :
    List Control.Event → Clockwork σ ρ → Prop
  | job (before : List (Job ρ)) (job : Job ρ) (after : List (Job ρ)) :
      c.queue = before ++ job :: after →
      Turn p b c (job.events p b c.world) ({ c with queue := before ++ after }.runJob p b job)
  | time {now ready rest} : c.world.now ≤ now → c.pending.Perm (ready ++ rest) →
      (∀ j ∈ ready, j.1 * nanosPerMilli ≤ now) →
      Turn p b c [] { c with
        world := { c.world with now }, queue := c.queue ++ ready.map (·.2), pending := rest }
  | feed (s : σ) : Turn p b c [] { c with world := { c.world with backend := s } }
  | asked {α : Type} (plan : Plan α) (opened : List PathId) :
      Turn p b c (c.world.events p b plan)
        { c with world := (c.world.advance p b plan opened).2.2 }.noticeTimer
  | spawned (plan : Plan ρ) :
      Turn p b c [] { c.enqueue (.spawned c.spawned plan []) with spawned := c.spawned + 1 }
  | joined (n : Nat) : Turn p b c [] { c with joined := n }
  | scheduled :
      Turn p b c [] { c.enqueue (.tick (c.schedulers + 1) c.world.now) with
        schedulers := c.schedulers + 1 }

/-- Any number of turns, and all that they did to the control. -/
inductive Run (p : Poller) (b : Backend σ) (c : Clockwork σ ρ) :
    List Control.Event → Clockwork σ ρ → Prop
  | start : Run p b c [] c
  | turn {es es' : List Control.Event} {c' c'' : Clockwork σ ρ} :
      Run p b c es c' → Turn p b c' es' c'' → Run p b c (es ++ es') c''

theorem Run.trans {c c' c'' : Clockwork σ ρ} {es es' : List Control.Event} (h : Run p b c es c')
    (h' : Run p b c' es' c'') : Run p b c (es ++ es') c'' := by
  induction h' with
  | start => rwa [List.append_nil]
  | turn _ ht ih =>
    rw [← List.append_assoc]
    exact ih.turn ht

theorem Turn.run {c c' : Clockwork σ ρ} {es : List Control.Event} (h : Turn p b c es c') :
    Run p b c es c' := Run.start.turn h

/-! ## The order that a clockwork takes -/

theorem Turn.moveTo (c : Clockwork σ ρ) (ms : Nat) : Turn p b c [] (c.moveTo ms) := by
  refine .time (Nat.le_max_left ..) ?_ ?_
  · have hsplit := List.filter_append_perm
      (fun j : Nat × Job ρ => j.1 * nanosPerMilli ≤ max c.world.now (ms * nanosPerMilli)) c.pending
    refine hsplit.symm.trans (List.Perm.of_eq (congrArg _ (List.filter_congr ?_)))
    intro j _
    rw [← decide_not, decide_eq_decide]
    exact Nat.not_le
  · intro j hj
    exact of_decide_eq_true (List.mem_filter.mp hj).2

theorem Turn.next {c : Clockwork σ ρ} {job : Job ρ} {queue : List (Job ρ)}
    (h : c.queue = job :: queue) :
    Turn p b c (job.events p b c.world) ({ c with queue }.runJob p b job) := .job [] job queue h

theorem Run.runUntil (last fuel : Nat) (c : Clockwork σ ρ) :
    ∃ es, Run p b c es (c.runUntil p b last fuel) := by
  induction fuel generalizing c with
  | zero => exact ⟨[], .start⟩
  | succ fuel ih =>
    rw [Clockwork.runUntil]
    split
    · rename_i job queue hqueue
      obtain ⟨es, hrun⟩ := ih ({ c with queue }.runJob p b job)
      exact ⟨_, (Turn.next hqueue).run.trans hrun⟩
    · split
      · rename_i ms _
        split
        · obtain ⟨es, hrun⟩ := ih (c.moveTo ms)
          exact ⟨_, (Turn.moveTo c ms).run.trans hrun⟩
        · exact ⟨_, (Turn.moveTo c last).run⟩
      · exact ⟨_, (Turn.moveTo c last).run⟩

theorem Run.runSpawned (fuel : Nat) (c : Clockwork σ ρ) :
    ∃ es, Run p b c es (c.runSpawned p b fuel) := by
  induction fuel generalizing c with
  | zero => exact ⟨[], .start⟩
  | succ fuel ih =>
    rw [Clockwork.runSpawned]
    split
    · rename_i job queue hqueue
      obtain ⟨es, hrun⟩ := ih ({ c with queue }.runJob p b job)
      exact ⟨_, (Turn.next hqueue).run.trans hrun⟩
    · split
      · exact ⟨[], .start⟩
      · split
        · rename_i ms _
          obtain ⟨es, hrun⟩ := ih (c.moveTo ms)
          exact ⟨_, (Turn.moveTo c ms).run.trans hrun⟩
        · exact ⟨[], .start⟩

theorem Run.runStep (fuel : Nat) (due : Option Nat) (plan : Plan α) (opened : List PathId)
    (c : Clockwork σ ρ) : ∃ es, Run p b c es (c.runStep p b fuel due plan opened).2 := by
  induction fuel generalizing c due plan opened with
  | zero => exact ⟨[], .start⟩
  | succ fuel ih =>
    cases due with
    | some due =>
      rw [Clockwork.runStep]
      split
      · exact ih none plan opened c
      · split
        · rename_i job queue hqueue
          obtain ⟨es, hrun⟩ := ih (some due) plan opened ({ c with queue }.runJob p b job)
          exact ⟨_, (Turn.next hqueue).run.trans hrun⟩
        · obtain ⟨es, hrun⟩ := ih (some due) plan opened (c.moveTo (min due (c.earliest.getD due)))
          exact ⟨_, (Turn.moveTo c _).run.trans hrun⟩
    | none =>
      rw [Clockwork.runStep]
      have hturn := Turn.asked (p := p) (b := b) (c := c) plan opened
      split
      · rename_i world hadvance
        rw [hadvance] at hturn
        exact ⟨_, hturn.run⟩
      · rename_i ms rest opened' world hadvance
        rw [hadvance] at hturn
        obtain ⟨es, hrun⟩ := ih (some (({ c with world } : Clockwork σ ρ).noticeTimer.millis + ms)) rest
          opened' ({ c with world } : Clockwork σ ρ).noticeTimer
        exact ⟨_, hturn.run.trans hrun⟩

end Clockwork
end FeedPoller
