import FeedPoller.Backend.Script
import FeedPoller.Proofs.Failures
import FeedPoller.Proofs.Walks

/-! A poll by command as a cycle. A command that overrides nothing polls for the poller itself, on a path
of its own. Main statement: where polling goes on and both paths give the same answers, the command
reads what the cycle would read, delivers and records the same and comes to the same, whatever goes on
while they wait (`ofPoll_as_cycle`). -/

namespace FeedPoller

variable {σ α β : Type} {p : Poller} {b : Backend σ} {amid : Nat → World σ → World σ}

/-! ## Runs with others at work -/

/-- Whether an operation waits for the action, so that others go on meanwhile. -/
def Action.waits : Action → Bool
  | .read .. | .update .. | .dispatch _ => true
  | _ => false

/-- What came of a plan: what it did, the first action first, and how often it had waited by then. -/
structure Ran (σ α : Type) where
  steps : List Answered := []
  outcome : α
  world : World σ
  waited : Nat

/-- With other steps before. -/
def Ran.after (r : Ran σ α) (steps : List Answered) : Ran σ α := { r with steps := steps ++ r.steps }

/-- Carries out a plan, with what goes on while it waits for the first time, the second, and so on. -/
def World.runAmid (p : Poller) (b : Backend σ) (amid : Nat → World σ → World σ) :
    Plan α → World σ → Nat → Ran σ α
  | .done a, w, n => { outcome := a, world := w, waited := n }
  | .act action next, w, n =>
    let (answer, w) := w.perform p b action
    let rest :=
      if action.waits then runAmid p b amid (next answer.value) (amid n w) (n + 1)
      else runAmid p b amid (next answer.value) w n
    rest.after [⟨action, answer.value⟩]

theorem World.runAmid_bind (plan : Plan α) (f : α → Plan β) (w : World σ) (n : Nat) :
    runAmid p b amid (plan >>= f) w n =
      (runAmid p b amid (f (runAmid p b amid plan w n).outcome) (runAmid p b amid plan w n).world
        (runAmid p b amid plan w n).waited).after (runAmid p b amid plan w n).steps := by
  induction plan generalizing w n with
  | done a => rfl
  | act action next ih =>
    simp only [Bind.bind, Plan.bind, runAmid]
    split
    · exact congrArg (Ran.after · _) (ih ..)
    · exact congrArg (Ran.after · _) (ih ..)

theorem World.runAmid_map (plan : Plan α) (f : α → β) (w : World σ) (n : Nat) :
    runAmid p b amid (plan >>= fun a => pure (f a)) w n =
      { runAmid p b amid plan w n with outcome := f (runAmid p b amid plan w n).outcome } := by
  rw [runAmid_bind]
  simp only [Ran.after, Pure.pure, runAmid, List.append_nil]

/-- With nothing going on, that is how a plan runs by itself. -/
theorem World.runAmid_alone (plan : Plan α) (w : World σ) (n : Nat) :
    ((runAmid p b (fun _ w => w) plan w n).outcome, (runAmid p b (fun _ w => w) plan w n).world) =
      w.run p b plan := by
  induction plan generalizing w n with
  | done a => rfl
  | act action next ih =>
    simp only [runAmid, Ran.after]
    split
    · exact ih ..
    · exact ih ..

/-! ## Agreement -/

/-- Worlds alike in all but the backend and the counters. -/
structure World.Agrees (w w' : World σ) : Prop where
  history : w'.history = w.history
  control : w'.control = w.control
  sink : w'.sink = w.sink
  now : w'.now = w.now

/-- Backends may differ. -/
theorem World.Agrees.backends {w w' : World σ} (h : w.Agrees w') (s s' : σ) :
    World.Agrees { w with backend := s } { w' with backend := s' } :=
  ⟨h.history, h.control, h.sink, h.now⟩

/-- What goes on is the same in worlds that agree. -/
def Impartial (amid : Nat → World σ → World σ) : Prop :=
  ∀ n w w', w.Agrees w' → (amid n w).Agrees (amid n w')

/-- What a step reads, delivers, looks up, records or suspends, on whatever path, if it does any of
that. -/
def Answered.pathless : Answered → Option Answered
  | ⟨.read _ cursor params, reply⟩ => some ⟨.read backgroundPath cursor params, reply⟩
  | ⟨.seen who id, reply⟩ => some ⟨.seen who id, reply⟩
  | ⟨.dispatch d, reply⟩ => some ⟨.dispatch d, reply⟩
  | ⟨.record who id, reply⟩ => some ⟨.record who id, reply⟩
  | ⟨.suspend asked, reply⟩ => some ⟨.suspend asked, reply⟩
  | _ => none

/-- Actions for which no path is needed. -/
def Action.IsPathless : Action → Prop
  | .authRequired | .create | .openSession .. | .closeSession _ | .read .. | .update .. => False
  | _ => True

/-- Runs that did the same, came to the same and left the same. -/
structure Ran.Agrees (r r' : Ran σ α) : Prop where
  steps : r'.steps.filterMap Answered.pathless = r.steps.filterMap Answered.pathless
  outcome : r'.outcome = r.outcome
  world : r.world.Agrees r'.world
  waited : r'.waited = r.waited

theorem Ran.Agrees.after {r r' : Ran σ α} (h : r.Agrees r') {steps steps' : List Answered}
    (hsteps : steps'.filterMap Answered.pathless = steps.filterMap Answered.pathless) :
    (r.after steps).Agrees (r'.after steps') where
  steps := by
    rw [Ran.after, Ran.after, List.filterMap_append, List.filterMap_append, hsteps, h.steps]
  outcome := h.outcome
  world := h.world
  waited := h.waited

/-- Steps that are about paths alone make no difference. -/
theorem Ran.Agrees.behind {r r' : Ran σ α} (h : r.Agrees r') {steps : List Answered}
    (hsteps : steps.filterMap Answered.pathless = []) : r.Agrees (r'.after steps) where
  steps := by
    rw [Ran.after, List.filterMap_append, hsteps, List.nil_append, h.steps]
  outcome := h.outcome
  world := h.world
  waited := h.waited

theorem Ran.Agrees.bind {plan plan' : Plan α} {f f' : α → Plan β} {w w' : World σ} {n n' : Nat}
    (h : (w.runAmid p b amid plan n).Agrees (w'.runAmid p b amid plan' n'))
    (hf : ∀ a (w w' : World σ) n, w.Agrees w' →
      (w.runAmid p b amid (f a) n).Agrees (w'.runAmid p b amid (f' a) n)) :
    (w.runAmid p b amid (plan >>= f) n).Agrees (w'.runAmid p b amid (plan' >>= f') n') := by
  rw [World.runAmid_bind, World.runAmid_bind, h.outcome, h.waited]
  exact (hf _ _ _ _ h.world).after h.steps

/-- In worlds that agree a pathless action gives the same and leaves the same. -/
theorem World.Agrees.perform {w w' : World σ} (h : w.Agrees w') {action : Action}
    (haction : action.IsPathless) :
    (w'.perform p b action).1.value = (w.perform p b action).1.value ∧
      (w.perform p b action).2.Agrees (w'.perform p b action).2 := by
  obtain ⟨s, history, control, counters, sink, now⟩ := w
  obtain ⟨s', history', control', counters', sink', now'⟩ := w'
  obtain ⟨rfl, rfl, rfl, rfl⟩ := h
  cases action with
  | authRequired | create | openSession | closeSession | read | update => exact haction.elim
  | _ => exact ⟨rfl, rfl, rfl, rfl, rfl⟩

/-- So does a plan of such actions, whatever goes on meanwhile. -/
theorem Plan.Only.agrees (hamid : Impartial amid) {plan : Plan α}
    (h : plan.Only Action.IsPathless) {w w' : World σ} (hw : w.Agrees w') (n : Nat) :
    (w.runAmid p b amid plan n).Agrees (w'.runAmid p b amid plan n) := by
  induction plan generalizing w w' n with
  | done a => exact ⟨rfl, rfl, hw, rfl⟩
  | act action next ih =>
    obtain ⟨haction, hnext⟩ := h
    obtain ⟨hvalue, hafter⟩ := hw.perform (p := p) (b := b) haction
    simp only [World.runAmid, hvalue]
    split
    · exact (ih _ (hnext _) (hamid n _ _ hafter) (n + 1)).after rfl
    · exact (ih _ (hnext _) hafter n).after rfl

/-! ## Polls on two paths -/

theorem World.runAmid_read_bind (path : PathId) (cursor : Option String) (params : Json.Fields)
    (f : Except ReadFailure (List Item) → Plan α) (w : World σ) (n : Nat) :
    runAmid p b amid (Plan.one (.read path cursor params) >>= f) w n =
      (runAmid p b amid (f (b.read path cursor params w.backend).1.value)
        (amid n { w with backend := (b.read path cursor params w.backend).2 }) (n + 1)).after
        [⟨.read path cursor params, (b.read path cursor params w.backend).1.value⟩] := rfl

/-- An action for which an operation does not wait. -/
theorem World.runAmid_one_bind {action : Action} (h : action.waits = false)
    (f : action.Reply → Plan α) (w : World σ) (n : Nat) :
    runAmid p b amid (Plan.one action >>= f) w n =
      (runAmid p b amid (f (w.perform p b action).1.value) (w.perform p b action).2 n).after
        [⟨action, (w.perform p b action).1.value⟩] := by
  simp only [Bind.bind, Plan.one, Plan.bind, runAmid, h]
  rfl

/-- Polls to which both paths give the same answer do the same. -/
theorem Poller.poll_agrees (hamid : Impartial amid) {w w' : World σ} (hw : w.Agrees w')
    {path path' : PathId} {who : Identity} {creds : CredentialSet} {cursor : Option String}
    {params : Json.Fields}
    (hread : (b.read path' cursor params w'.backend).1.value =
      (b.read path cursor params w.backend).1.value) (n : Nat) :
    (w.runAmid p b amid (p.poll path who cursor params creds) n).Agrees
      (w'.runAmid p b amid (p.poll path' who cursor params creds) n) := by
  have hoffer : ∀ items, (p.offer who creds items {}).Only Action.IsPathless :=
    fun items => offer_only (fun _ => trivial) (fun _ => trivial) (fun _ => trivial) items {}
  obtain ⟨next, hpoll, hnext, -⟩ := poll_reads (fun _ _ => trivial) (fun _ => trivial) hoffer path
    cursor params
  have hrest := eq_of_heq (Plan.act.inj hpoll).2
  have honly := fun r => (congrArg (Plan.Only Action.IsPathless) (congrFun hrest r)).mpr (hnext r)
  have hafter : (amid n { w with backend := (b.read path cursor params w.backend).2 }).Agrees
      (amid n { w' with backend := (b.read path' cursor params w'.backend).2 }) :=
    hamid n _ _ (hw.backends _ _)
  unfold poll
  rw [World.runAmid_read_bind, World.runAmid_read_bind, hread]
  refine Ran.Agrees.after ?_ rfl
  -- with the answer known, what is left of the plan is the same on both paths
  match hr : (b.read path cursor params w.backend).1.value with
  | .error (.rateLimited asked) => exact (honly (.error (.rateLimited asked))).agrees hamid hafter (n + 1)
  | .error (.fetch e) => exact (honly (.error (.fetch e))).agrees hamid hafter (n + 1)
  | .ok items => exact (honly (.ok items)).agrees hamid hafter (n + 1)

/-! ## Sessions on two paths -/

/-- A backend once the session of the credentials was asked for, if they are a pair. -/
def Backend.opened (b : Backend σ) (path : PathId) (creds : CredentialSet) (s : σ) : σ :=
  match creds.pair with
  | none => s
  | some (consumer, user) => (b.openSession path consumer user s).2

theorem Poller.withSession_agrees {w w' : World σ} (hw : w.Agrees w') {path path' : PathId}
    {creds : CredentialSet} {plan plan' : Plan (Except Failure α)} {n : Nat}
    (hopened : ∀ consumer user, creds.pair = some (consumer, user) →
      (b.openSession path' consumer user w'.backend).1 =
        (b.openSession path consumer user w.backend).1)
    (hplan : (World.runAmid p b amid plan
        { w with backend := b.opened path creds w.backend } n).Agrees
      (World.runAmid p b amid plan' { w' with backend := b.opened path' creds w'.backend } n)) :
    (w.runAmid p b amid (withSession path creds plan) n).Agrees
      (w'.runAmid p b amid (withSession path' creds plan') n) := by
  unfold withSession
  unfold Backend.opened at hplan
  cases hpair : creds.pair with
  | none =>
    rw [hpair] at hplan
    exact hplan
  | some pair =>
    obtain ⟨consumer, user⟩ := pair
    rw [hpair] at hplan
    have hanswer := hopened consumer user hpair
    simp only
    rw [World.runAmid_one_bind rfl, World.runAmid_one_bind rfl]
    refine Ran.Agrees.after ?_ rfl
    simp only [World.perform, hanswer]
    cases (b.openSession path consumer user w.backend).1 with
    | error e => exact ⟨rfl, rfl, hw.backends _ _, rfl⟩
    | ok _ =>
      refine hplan.bind fun result w w' n hw => ?_
      exact ⟨rfl, rfl, hw.backends _ _, rfl⟩

/-! ## A command that overrides nothing -/

/-- What a new path answers to a poll for the poller itself, the background path answers too. -/
structure SameAnswers (p : Poller) (b : Backend σ) (w : World σ) (path : PathId) (s : σ) : Prop where
  opened : ∀ consumer user, p.background.pair = some (consumer, user) →
    (b.openSession path consumer user s).1 =
      (b.openSession backgroundPath consumer user w.backend).1
  read : (b.read path (w.history.cursor p.background.identity) p.settings.query
      (b.opened path p.background s)).1.value =
    (b.read backgroundPath (w.history.cursor p.background.identity) p.settings.query
      (b.opened backgroundPath p.background w.backend)).1.value

/-- A command did what a cycle did, came to the same and left the same history, control and sink. -/
structure AsCycle (handled : Ran σ (Except Failure CommandReport))
    (cycle : Ran σ (Except Failure CycleReport)) : Prop where
  outcome : handled.outcome = cycle.outcome.map fun report => { poll := some report }
  steps : handled.steps.filterMap Answered.pathless = cycle.steps.filterMap Answered.pathless
  world : cycle.world.Agrees handled.world

/-- Such a command is a poll for the poller itself, in a session on a path made for it. -/
theorem Poller.handle_ofPoll (hm : p.background.mismatched = false) :
    p.handle .ofPoll = Plan.one .create >>= fun r => match r with
      | .error e => pure (.error e)
      | .ok path => withSession path p.background
          (Plan.one (.cursor p.background.identity) >>= fun cursor =>
            p.poll path p.background.identity cursor p.settings.query p.background) >>= fun r =>
              pure (r.map fun report => { poll := some report }) := by
  have hcreds : p.credentialsOf .ofPoll = p.background := rfl
  unfold handle
  rw [hcreds, if_neg (by simp [hm])]
  refine bind_congr fun r => ?_
  match r with
  | .error _ => rfl
  | .ok path =>
    simp only
    rw [← withSession_map]
    refine congrArg (withSession path p.background) ?_
    have hpoll : p.commandPoll path p.background.identity p.background .ofPoll =
        Plan.one (.cursor p.background.identity) >>= fun cursor =>
          p.poll path p.background.identity cursor p.settings.query p.background >>= fun r =>
            pure (r.map some) := by
      refine bind_congr (x := Plan.one (.cursor p.background.identity)) fun cursor => ?_
      refine bind_congr fun r => ?_
      cases r <;> rfl
    rw [hpoll, bind_assoc, bind_assoc]
    refine bind_congr fun cursor => ?_
    rw [bind_assoc]
    refine bind_congr fun r => ?_
    cases r <;> rfl

/-- Where polling goes on, a cycle is a poll in a session on the background path. -/
theorem Poller.runAmid_runCycle (hm : p.background.mismatched = false) {w : World σ}
    (hrunning : w.control.state = .running) (n : Nat) :
    w.runAmid p b amid p.runCycle n =
      (World.runAmid p b amid (withSession backgroundPath p.background
        (p.poll backgroundPath p.background.identity (w.history.cursor p.background.identity)
          p.settings.query p.background)) { w with counters := w.counters.add .cycles 1 } n).after
      [⟨.state, .running⟩, ⟨.count .cycles 1, ()⟩,
        ⟨.cursor p.background.identity, w.history.cursor p.background.identity⟩] := by
  have hstate : (w.perform p b .state).1.value = .running := hrunning
  unfold runCycle
  rw [World.runAmid_one_bind rfl, hstate, if_neg (by decide), World.runAmid_one_bind rfl,
    if_neg (by simp [hm]), World.runAmid_one_bind rfl]
  rfl

/-- Whatever goes on meanwhile, a command that overrides nothing is as good as a cycle, if polling goes
on, the poller's credentials are no user without a consumer and both paths give the same answers. -/
theorem ofPoll_as_cycle (hamid : Impartial amid) {w : World σ}
    (hrunning : w.control.state = .running) (hm : p.background.mismatched = false) {path : PathId}
    {s : σ} (hcreate : b.create w.backend = (.ok path, s)) (hsame : SameAnswers p b w path s) :
    AsCycle (w.runAmid p b amid (p.handle .ofPoll) 0) (w.runAmid p b amid p.runCycle 0) := by
  have hpath : (w.perform p b .create).1.value = .ok path := congrArg Prod.fst hcreate
  have hworld : (w.perform p b .create).2 = { w with backend := s } := by
    simp only [World.perform, hcreate]
  have hsession :
      (World.runAmid p b amid (Poller.withSession backgroundPath p.background
        (p.poll backgroundPath p.background.identity (w.history.cursor p.background.identity)
          p.settings.query p.background)) { w with counters := w.counters.add .cycles 1 } 0).Agrees
      (World.runAmid p b amid (Poller.withSession path p.background
        (Plan.one (.cursor p.background.identity) >>= fun cursor =>
          p.poll path p.background.identity cursor p.settings.query p.background))
        { w with backend := s } 0) := by
    have hw : World.Agrees { w with counters := w.counters.add .cycles 1 } { w with backend := s } :=
      ⟨rfl, rfl, rfl, rfl⟩
    refine Poller.withSession_agrees hw hsame.opened ?_
    rw [World.runAmid_one_bind rfl]
    have hopened := hw.backends (b.opened backgroundPath p.background w.backend)
      (b.opened path p.background s)
    exact (Poller.poll_agrees hamid hopened hsame.read 0).behind rfl
  rw [Poller.handle_ofPoll hm, Poller.runAmid_runCycle hm hrunning, World.runAmid_one_bind rfl, hpath,
    hworld]
  simp only
  rw [World.runAmid_map]
  refine { outcome := ?_, steps := ?_, world := hsession.world }
  · exact congrArg (Except.map fun report => ({ poll := some report } : CommandReport))
      hsession.outcome
  · exact hsession.steps

namespace Script

/-- Two items to read and sessions to open, on as many paths as are made. -/
def twoToRead : World Script where
  backend := {
    sessions := true, fresh := true, created := 1
    reads := [⟨.ok [⟨"a", .null, []⟩, ⟨"b", .null, []⟩], none⟩] }
  history := .new 100 true
  sink := { rule := .refuseId "b" }

/-- While an operation waits, a second passes and polling is resumed from outside. -/
def resumedMeanwhile (_ : Nat) (w : World Script) : World Script :=
  { w with now := w.now + 1000000000, control := (w.control.resume w.now).2 }

theorem twoToRead_ofPoll_as_cycle :
    Impartial resumedMeanwhile ∧ twoToRead.control.state = .running ∧
      forUser.background.mismatched = false ∧
      (twoToRead.runAmid forUser backend resumedMeanwhile (forUser.handle .ofPoll) 0).outcome =
        .error (.dispatch "downstream rejected b") ∧
      AsCycle (twoToRead.runAmid forUser backend resumedMeanwhile (forUser.handle .ofPoll) 0)
        (twoToRead.runAmid forUser backend resumedMeanwhile forUser.runCycle 0) := by
  have hamid : Impartial resumedMeanwhile := by
    intro n w w' hw
    obtain ⟨hhistory, hcontrol, hsink, hnow⟩ := hw
    simp only [resumedMeanwhile, hhistory, hcontrol, hsink, hnow]
    exact ⟨rfl, rfl, rfl, rfl⟩
  have hsame : SameAnswers forUser backend twoToRead 1 (create twoToRead.backend).2 := by
    refine { opened := ?_, read := rfl }
    intro consumer user _
    rfl
  exact ⟨hamid, rfl, rfl, rfl, ofPoll_as_cycle hamid rfl rfl rfl hsame⟩

end Script

end FeedPoller
