import FeedPoller.Proofs.Conduct
import FeedPoller.Proofs.Turns

/-! What a tick reads. A poll reads once, before it waits for anything else and before it touches the
control, so a tick begins its read at the moment at which it finds polling going on, or none at all
(`Plan.ReadsOnce`, `Poller.tick_readsOnce`). -/

namespace FeedPoller

variable {σ ρ α β : Type} {p : Poller} {b : Backend σ}

/-! ## Reads -/

/-- The world in which an action begins a read, if it does. -/
def readAt : World σ × Action → Option (World σ)
  | (w, .read ..) => some w
  | _ => none

/-- The reads that a plan begins up to its next wait, by the worlds in which it does. -/
def World.readsBegun (p : Poller) (b : Backend σ) (plan : Plan α) (w : World σ) : List (World σ) :=
  (w.deeds p b plan).filterMap readAt

/-- Actions that are over at once and do not concern the control. -/
def Action.IsPlain : Action → Prop
  | .read .. | .update .. | .suspend _ | .resume => False
  | _ => True

theorem Action.IsPlain.noRead {action : Action} (h : action.IsPlain) : action.NoRead := by
  cases action with
  | read => exact h.elim
  | _ => trivial

theorem Action.IsPlain.perform {action : Action} (h : action.IsPlain) (w : World σ) :
    (w.perform p b action).1.wait = none ∧ (w.perform p b action).2.control = w.control := by
  cases action with
  | read | update | suspend | resume => exact h.elim
  | _ => exact ⟨rfl, rfl⟩

theorem readAt_of_noRead {action : Action} (h : action.NoRead) (w : World σ) :
    readAt (w, action) = none := by
  cases action with
  | read => exact h.elim
  | _ => rfl

/-- Plans with at most one read, before which there is nothing to wait for. -/
inductive Plan.ReadsOnce : Plan α → Prop
  | never {plan : Plan α} : plan.Only Action.NoRead → ReadsOnce plan
  | read {path : PathId} {cursor : Option String} {params : Json.Fields}
      {next : Except ReadFailure (List Item) → Plan α} :
      (∀ r, (next r).Only Action.NoRead) → ReadsOnce (.act (.read path cursor params) next)
  | before {action : Action} {next : action.Reply → Plan α} :
      action.IsPlain → (∀ r, (next r).ReadsOnce) → ReadsOnce (.act action next)

namespace Plan

theorem ReadsOnce.bind {plan : Plan α} {f : α → Plan β} (h : plan.ReadsOnce)
    (hf : ∀ a, (f a).Only Action.NoRead) : (plan >>= f).ReadsOnce := by
  induction h with
  | never h => exact .never (.bind h hf)
  | read hnext => exact .read fun r => .bind (hnext r) hf
  | before haction _ ih => exact .before haction ih

theorem ReadsOnce.one_bind {action : Action} {f : action.Reply → Plan α} (haction : action.IsPlain)
    (hf : ∀ r, (f r).ReadsOnce) : (Plan.one action >>= f).ReadsOnce := .before haction hf

theorem Only.readsBegun {plan : Plan α} (h : plan.Only Action.NoRead) (w : World σ) :
    w.readsBegun p b plan = [] := by
  induction plan generalizing w with
  | done a => rfl
  | act action next ih =>
    obtain ⟨haction, hnext⟩ := h
    have hread := readAt_of_noRead haction w
    obtain ⟨ms, hw⟩ | hw := w.waits_or_goesOn p b action
    · rw [World.readsBegun, hw.deeds, List.filterMap_cons_none hread, List.filterMap_nil]
    · rw [World.readsBegun, hw.deeds, List.filterMap_cons_none hread]
      exact ih _ (hnext _) _

/-- What is left of a plan when it waits has only the actions that the plan has. -/
theorem Only.waiting {allowed : Action → Prop} {plan rest : Plan α} (h : plan.Only allowed)
    {w : World σ} {opened : List PathId} {ms : Nat}
    (hwaits : (w.advance p b plan opened).1 = .waiting ms rest) : rest.Only allowed := by
  induction plan generalizing w opened with
  | done a => cases hwaits
  | act action next ih =>
    obtain ⟨-, hnext⟩ := h
    obtain ⟨_, hw⟩ | hw := w.waits_or_goesOn p b action
    · rw [hw.advance] at hwaits
      cases hwaits
      exact hnext _
    · rw [hw.advance] at hwaits
      exact ih _ (hnext _) hwaits

/-- If it begins a read, it does so at once and with the control as it was. -/
theorem ReadsOnce.readsBegun {plan : Plan α} (h : plan.ReadsOnce) (w : World σ) :
    w.readsBegun p b plan = [] ∨
      ∃ w', w.readsBegun p b plan = [w'] ∧ w'.now = w.now ∧ w'.control = w.control := by
  induction h generalizing w with
  | never h => exact .inl (h.readsBegun w)
  | @read path cursor params next hnext =>
    refine .inr ⟨w, ?_, rfl, rfl⟩
    obtain ⟨ms, hw⟩ | hw := w.waits_or_goesOn p b (.read path cursor params)
    · rw [World.readsBegun, hw.deeds]
      rfl
    · rw [World.readsBegun, hw.deeds]
      exact congrArg (w :: ·) ((hnext _).readsBegun _)
  | @before action next haction _ ih =>
    obtain ⟨hwait, hcontrol⟩ := haction.perform (p := p) (b := b) w
    rw [World.readsBegun, (World.goesOn_of_wait hwait).deeds,
      List.filterMap_cons_none (readAt_of_noRead haction.noRead w), ← hcontrol,
      ← w.now_perform (p := p) (b := b) action]
    exact ih _ _

/-- When it waits, it has begun its read. -/
theorem ReadsOnce.waiting {plan rest : Plan α} (h : plan.ReadsOnce) {w : World σ}
    {opened : List PathId} {ms : Nat}
    (hwaits : (w.advance p b plan opened).1 = .waiting ms rest) : rest.Only Action.NoRead := by
  induction h generalizing w opened with
  | never h => exact h.waiting hwaits
  | @read path cursor params next hnext =>
    obtain ⟨_, hw⟩ | hw := w.waits_or_goesOn p b (.read path cursor params)
    · rw [hw.advance] at hwaits
      cases hwaits
      exact hnext _
    · rw [hw.advance] at hwaits
      exact (hnext _).waiting hwaits
  | before haction _ ih =>
    rw [(World.goesOn_of_wait (haction.perform w).1).advance] at hwaits
    exact ih _ hwaits

end Plan

/-! ## Ticks -/

/-- A tick, or what is left of one. -/
abbrev TickPlan := Plan (Option (Except Failure CycleReport))

namespace Poller

theorem poll_readsOnce (path : PathId) (who : Identity) (cursor : Option String)
    (params : Json.Fields) (creds : CredentialSet) :
    (p.poll path who cursor params creds).ReadsOnce := by
  have hoffer : ∀ items, (p.offer who creds items {}).Only Action.NoRead :=
    fun items => offer_only (fun _ => trivial) (fun _ => trivial) (fun _ => trivial) items {}
  obtain ⟨next, hpoll, hnext, -⟩ := poll_reads (fun _ _ => trivial) (fun _ => trivial)
    hoffer path cursor params
  rw [hpoll]
  exact .read hnext

theorem withSession_readsOnce {path : PathId} {creds : CredentialSet}
    {plan : Plan (Except Failure α)} (h : plan.ReadsOnce) :
    (withSession path creds plan).ReadsOnce := by
  unfold withSession
  split
  · exact h
  · refine .one_bind trivial ?_
    intro r
    match r with
    | .error _ => exact .never (.pure _)
    | .ok () => exact h.bind fun _ => .bind (.one trivial) fun _ => .pure _

theorem runCycle_readsOnce : p.runCycle.ReadsOnce := by
  refine .one_bind trivial ?_
  intro s
  split
  · exact .never (.pure _)
  · refine .one_bind trivial fun _ => ?_
    split
    · exact .never (.pure _)
    · exact .one_bind trivial fun cursor => withSession_readsOnce (poll_readsOnce ..)

theorem tick_readsOnce : p.tick.ReadsOnce := by
  refine .one_bind trivial ?_
  intro s
  split
  · exact .never (.pure _)
  · exact runCycle_readsOnce.bind fun _ => .pure _

/-- Suspended, it does nothing at a tick. -/
theorem advance_tick_of_suspended {w : World σ} (h : w.control.state = .suspended)
    (opened : List PathId) :
    w.advance p b p.tick opened = (.finished none, opened, w) ∧ w.readsBegun p b p.tick = [] := by
  have hstate : ∀ f : PollState → TickPlan,
      w.advance p b (Plan.one .state >>= f) opened = w.advance p b (f w.control.state) opened ∧
        w.readsBegun p b (Plan.one .state >>= f) = w.readsBegun p b (f w.control.state) :=
    fun _ => ⟨rfl, rfl⟩
  rw [tick, (hstate _).1, (hstate _).2, h]
  exact ⟨rfl, rfl⟩

/-- Running it is when it begins a read at a tick. -/
theorem running_of_readsBegun {w : World σ} (h : w.readsBegun p b p.tick ≠ []) :
    w.control.state = .running := by
  cases hs : w.control.state with
  | running => rfl
  | suspended => exact absurd (advance_tick_of_suspended hs []).2 h

end Poller

end FeedPoller
