import FeedPoller.Proofs.Isolation
import FeedPoller.Proofs.Walks

/-! Who asks for what needs authorization. A host schedules cycles only while there are credentials of a
user to run them with; a command may come with none, and its requests then show none. A user without an
application is refused before anything is asked. Main statement: on a feed that requires authorization
every request of a scheduled cycle shows one, and a request of a command shows one just when the
credentials that it goes by have a user (`authorized_of_reached`). -/

namespace FeedPoller

variable {σ : Type} {p : Poller} {b : Backend σ}

/-- Unless they are a user without a consumer, credentials have something to show just when they have a
user. -/
theorem CredentialSet.authorization_isSome {creds : CredentialSet}
    (h : creds.mismatched = false) : creds.authorization.isSome = creds.user.isSome := by
  rw [authorization, Option.isSome_map, pair_isSome_iff]
  rcases creds with ⟨_ | consumer, _ | user⟩
  · rfl
  · cases h
  · rfl
  · rfl

/-! ## Refused operations -/

/-- Looking up whether polling is suspended, and counting a cycle. -/
def Action.IsIdle (action : Action) : Prop := action = .state ∨ action = .count .cycles 1

/-- That nothing was done. A tick may find polling suspended a moment after it found it running. -/
def Outcome.GivenUp : Outcome → Prop
  | .skipped => True
  | .cycle result => result = .ok {} ∨ result = .ok { aborted := true }
  | .command result => result = .ok { aborted := true }

namespace Operation

variable {op : Operation}

theorem plan_command_of_mismatched {c : Command}
    (h : ((command c).credentials p).mismatched = true) :
    (command c).plan p = pure (.command (.ok { aborted := true })) := by
  have hcreds : (p.credentialsOf c).mismatched = true := h
  rw [plan, Poller.handle, if_pos hcreds]
  rfl

theorem runCycle_of_mismatched (h : p.background.mismatched = true) :
    p.runCycle = Plan.one .state >>= fun s => if s = .suspended then pure (.ok {}) else
      Plan.one (.count .cycles 1) >>= fun _ => pure (.ok { aborted := true }) := by
  rw [Poller.runCycle]
  simp only [h, if_true]

theorem runCycle_only_of_mismatched (h : p.background.mismatched = true) :
    p.runCycle.Only Action.IsIdle := by
  rw [runCycle_of_mismatched h]
  refine .bind (.one (.inl rfl)) fun s => ?_
  split
  · exact .pure _
  · exact .bind (.one (.inr rfl)) fun _ => .pure _

/-- For want of a consumer an operation asks nothing of any path. -/
theorem plan_only_of_mismatched (h : (op.credentials p).mismatched = true) :
    (op.plan p).Only Action.IsIdle := by
  cases op with
  | cycle => exact .bind (runCycle_only_of_mismatched h) fun _ => .pure _
  | tick =>
    refine .bind (.bind (.one (.inl rfl)) fun s => ?_) fun r => ?_
    · split
      · exact .pure _
      · exact .bind (runCycle_only_of_mismatched h) fun _ => .pure _
    · cases r <;> exact .pure _
  | command c =>
    rw [plan_command_of_mismatched h]
    exact .pure _

theorem runCycle_givenUp_of_mismatched (h : p.background.mismatched = true) {steps : List Answered}
    {result : Except Failure CycleReport} (hwalk : p.runCycle.ComesTo steps result) :
    (Outcome.cycle result).GivenUp := by
  rw [runCycle_of_mismatched h] at hwalk
  obtain ⟨s, after, -, hafter⟩ := hwalk.one_bind
  split at hafter
  · exact .inl hafter.pure.2
  · obtain ⟨_, rest, -, hrest⟩ := hafter.one_bind
    exact .inr hrest.pure.2

/-- For want of a consumer an operation comes to nothing. -/
theorem givenUp_of_mismatched (h : (op.credentials p).mismatched = true) {steps : List Answered}
    {outcome : Outcome} (hwalk : (op.plan p).ComesTo steps outcome) : outcome.GivenUp := by
  cases op with
  | cycle =>
    obtain ⟨result, _, _, -, hcycle, hend⟩ := hwalk.bind
    rw [hend.pure.2]
    exact runCycle_givenUp_of_mismatched h hcycle
  | tick =>
    obtain ⟨result, _, _, -, htick, hend⟩ := hwalk.bind
    obtain ⟨s, after, -, hafter⟩ := htick.one_bind
    split at hafter
    · rw [hafter.pure.2] at hend
      rw [hend.pure.2]
      trivial
    · obtain ⟨cycle, _, _, -, hcycle, hsome⟩ := hafter.bind
      rw [hsome.pure.2] at hend
      rw [hend.pure.2]
      exact runCycle_givenUp_of_mismatched h hcycle
  | command c =>
    rw [plan_command_of_mismatched h] at hwalk
    rw [hwalk.pure.2]
    rfl

end Operation

/-! ## Hosted feeds -/

open StatusFeed

/-- Cycles begin, one at a time, while there is use in scheduling them, and commands at any time. Nobody
else uses the paths, and the feed stays what it is. -/
def hosted (p : Poller) : Rules p backend where
  moves f f' := f'.paths = f.paths ∧ f'.source = f.source
  begins c op := (apart p).begins c op ∧
    (op.IsScheduled → (c.world.run p backend p.shouldSchedule).1 = true)

theorem Action.IsIdle.sent {e : Entry StatusFeed} (h : e.action.IsIdle) : sent e = none := by
  obtain ⟨i, op, w, action, reply⟩ := e
  obtain rfl | rfl := h
  · rfl
  · rfl

theorem Rules.Later.of_hosted {c c' : Course StatusFeed} (h : (hosted p).Later c c') :
    (apart p).Later c c' := h.mono (fun _ _ hmove => hmove.1) fun _ _ hop => hop.1

theorem StatusFeed.source_perform (w : World StatusFeed) (action : Action) :
    (w.perform p backend action).2.backend.source = w.backend.source := by
  cases action with
  | openSession path consumer user =>
    simp only [World.perform, backend, openSession]
    split <;> rfl
  | _ => rfl

/-- The feed stays what it was at the start. -/
theorem Rules.Later.source {c c' : Course StatusFeed} (h : (hosted p).Later c c') :
    c'.world.backend.source = c.world.backend.source := by
  induction h with
  | refl => rfl
  | tail _ hs ih =>
    cases hs with
    | begin => exact ih
    | act => exact (source_perform _ _).trans ih
    | meanwhile hw =>
      obtain ⟨-, -, hs | hs⟩ := hw.apart
      · rw [hs]
        exact ih
      · exact hs.2.trans ih

/-- Cycles were begun for a user, if the feed requires authorization. -/
theorem Rules.Later.user {w : World StatusFeed} {c : Course StatusFeed}
    (h : (hosted p).Later { world := w } c) (hkind : w.backend.source.kind.authRequired = true) :
    ∀ t ∈ c.tasks, t.op.IsScheduled → p.background.user.isSome = true := by
  induction h with
  | refl => simp
  | @tail c c' hl hs ih =>
    cases hs with
    | @begin op hop =>
      intro t ht
      obtain ht | ht := List.mem_append.mp ht
      · exact ih t ht
      · obtain rfl := List.mem_singleton.mp ht
        intro hscheduled
        have huse : (p.settings.pollEnabled && !(c.world.backend.source.kind.authRequired &&
            p.background.user.isNone)) = true := hop.2 hscheduled
        have hsource : c.world.backend.source = w.backend.source := Rules.Later.source hl
        rw [hsource, hkind] at huse
        cases huser : p.background.user with
        | none => simp [huser] at huse
        | some user => rfl
    | @act i op action next hi =>
      intro t ht
      obtain ht | rfl := List.mem_or_eq_of_mem_set ht
      · exact ih t ht
      · exact ih ⟨op, .act action next⟩ (List.mem_of_getElem? hi)
    | meanwhile => exact ih

/-- Who has shown authorization in the requests that were carried, on a feed that requires it. -/
structure Authorized (p : Poller) (c : Course StatusFeed) : Prop where
  carried : ∀ e ∈ c.log, Carried p e
  scheduled : ∀ e ∈ c.log, e.op.IsScheduled → ∀ path r, sent e = some (path, r) →
    r.authorization.isSome = true
  requests : ∀ e ∈ c.log, ∀ path r, sent e = some (path, r) →
    r.authorization.isSome = (e.op.credentials p).user.isSome
  refused : ∀ e ∈ c.log, (e.op.credentials p).mismatched = true → e.action.IsIdle
  givenUp : ∀ t ∈ c.tasks, (t.op.credentials p).mismatched = true →
    ∀ outcome, t.plan = .done outcome → outcome.GivenUp

/-- On a feed that requires authorization, whatever goes on side by side, every request of a scheduled
cycle shows authorization. So does every request of a command whose own credentials, or those of the
poller, have a user, and no other one. A user without a consumer asks for nothing. -/
theorem authorized_of_reached {rule : Sink.Rule} {s : StatusFeed} (hs : s.paths = #[])
    (hkind : s.source.kind.authRequired = true) {c : Course StatusFeed}
    (h : (hosted p).Reached rule s c) : Authorized p c := by
  obtain ⟨w, hw, hl⟩ := h
  have hseparate := Separate.of_later (.start hs hw) hl.of_hosted
  have hrefused : ∀ e ∈ c.log, (e.op.credentials p).mismatched = true → e.action.IsIdle :=
    fun e he hm => hl.only he (Operation.plan_only_of_mismatched hm)
  have hrequests : ∀ e ∈ c.log, ∀ path r, sent e = some (path, r) →
      r.authorization.isSome = (e.op.credentials p).user.isSome := by
    intro e he path r hsent
    have hmatched : (e.op.credentials p).mismatched = false := by
      refine eq_false_of_ne_true fun hm => ?_
      rw [(hrefused e he hm).sent] at hsent
      cases hsent
    rw [hseparate.requests e he path r hsent]
    exact CredentialSet.authorization_isSome hmatched
  have hsource : w.backend.source.kind.authRequired = true := by
    rw [World.backend_of_init hw]
    exact hkind
  refine { carried := fun e _ => carried_perform p e, scheduled := ?_, requests := hrequests,
           refused := hrefused, givenUp := ?_ }
  · intro e he hscheduled path r hsent
    obtain ⟨t, ht, hop⟩ := hl.signed e he
    have huser := hl.user hsource t (List.mem_of_getElem? ht) (hop ▸ hscheduled)
    rw [hrequests e he path r hsent, hscheduled.credentials, huser]
  · intro t ht hm outcome houtcome
    obtain ⟨i, hi⟩ := List.mem_iff_getElem?.mp ht
    have hwalk := hl.walk hi
    rw [houtcome] at hwalk
    exact Operation.givenUp_of_mismatched hm hwalk

theorem sideBySide_authorized :
    bareTimeline.source.kind.authRequired = true ∧
      (hosted forOperator).Reached .acceptAll bareTimeline sideBySide ∧ sideBySide.Idle ∧
      (sideBySide.log.filterMap sent).length = 2 ∧ Authorized forOperator sideBySide := by
  have h : (hosted forOperator).Reached .acceptAll bareTimeline sideBySide := by
    refine ⟨_, rfl, Rules.Later.turns (Rules.Later.begin (Rules.Later.begin .refl ?_) ?_) _⟩
    · exact ⟨by simp [apart], fun _ => rfl⟩
    · exact ⟨fun hscheduled => hscheduled.elim, fun hscheduled => hscheduled.elim⟩
  exact ⟨rfl, h, by decide, by decide, authorized_of_reached rfl rfl h⟩

/-! ## Commands for nobody -/

/-- A poller without credentials. -/
def forNobody : Poller where
  settings := {}
  background := {}

/-- A poll of a home timeline that no user is there for. -/
def openDoor : Course StatusFeed :=
  [0, 0, 0, 0].foldl (Course.act forNobody backend)
    (({ world := { backend := bareTimeline.create.2, history := .new 200 false } } :
      Course StatusFeed).begin forNobody (.command .ofPoll))

/-- It is asked for without authorization, though the feed requires one. -/
theorem openDoor_unauthorized :
    bareTimeline.source.kind.authRequired = true ∧
      (hosted forNobody).Reached .acceptAll bareTimeline openDoor ∧ openDoor.Idle ∧
      ¬ ∀ e ∈ openDoor.log, ∀ path r, sent e = some (path, r) → r.authorization.isSome = true := by
  have h : (hosted forNobody).Reached .acceptAll bareTimeline openDoor := by
    refine ⟨_, rfl, Rules.Later.turns (Rules.Later.begin .refl ?_) _⟩
    exact ⟨fun hscheduled => hscheduled.elim, fun hscheduled => hscheduled.elim⟩
  refine ⟨rfl, h, by decide, fun hall => ?_⟩
  have hsent : (openDoor.log.filterMap fun e => (sent e).map (·.2.authorization)) = [none] := rfl
  obtain ⟨e, he, hnone⟩ := List.mem_filterMap.mp (hsent ▸ List.mem_singleton_self none)
  obtain ⟨⟨path, r⟩, hr, hnone⟩ := Option.map_eq_some_iff.mp hnone
  have hsome := hall e he path r hr
  rw [hnone] at hsome
  cases hsome

end FeedPoller
