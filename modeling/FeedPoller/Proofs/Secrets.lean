import FeedPoller.Proofs.Isolation
import Mathlib.Data.List.Forall2

/-! Secrets kept over a status feed. Two runs that differ in secrets only, none of which fails the check
of credentials, go on alike: their plans take the same steps, and their worlds stay the same but for the
secrets of what was delivered. Main statement: nothing that can be observed tells them apart
(`secrets_unobserved`). -/

namespace FeedPoller

variable {α β : Type} {p q : Poller}

/-! ## Things that differ in secrets only -/

/-- Whosever secret it is, it passes the check of credentials. -/
def Credentials.SecretPasses (c : Credentials) : Prop :=
  ∀ whose, Feed.Path.checkField whose "secret" c.secret = .ok ()

structure Credentials.Twin (c d : Credentials) : Prop where
  token : d.token = c.token
  passes : c.SecretPasses
  passesToo : d.SecretPasses

structure CredentialSet.Twin (c d : CredentialSet) : Prop where
  consumer : Option.Rel Credentials.Twin c.consumer d.consumer
  user : Option.Rel Credentials.Twin c.user d.user

structure Delivery.Twin (d e : Delivery) : Prop where
  item : e.item = d.item
  consumer : Option.Rel Credentials.Twin d.consumer e.consumer
  user : Option.Rel Credentials.Twin d.user e.user

structure Command.Twin (c d : Command) : Prop where
  rest : d = { c with consumer := d.consumer, user := d.user }
  consumer : Option.Rel Credentials.Twin c.consumer d.consumer
  user : Option.Rel Credentials.Twin c.user d.user

inductive Operation.Twin : Operation → Operation → Prop
  | cycle : Twin .cycle .cycle
  | tick : Twin .tick .tick
  | command {c d : Command} : c.Twin d → Twin (.command c) (.command d)

structure Poller.Twin (p q : Poller) : Prop where
  settings : q.settings = p.settings
  background : p.background.Twin q.background

/-- Sinks that accepted twins of each other's deliveries, and judge twins alike. -/
structure Sink.Twin (s t : Sink) : Prop where
  offered : t.offered = s.offered
  accepted : List.Forall₂ Delivery.Twin s.accepted t.accepted
  rule : ∀ n d e, d.Twin e → t.rule.refusal n e = s.rule.refusal n d

structure World.Twin (w w' : World StatusFeed) : Prop where
  backend : w'.backend = w.backend
  history : w'.history = w.history
  control : w'.control = w.control
  counters : w'.counters = w.counters
  now : w'.now = w.now
  sink : w.sink.Twin w'.sink

/-! ## What is shown of them -/

theorem Credentials.Twin.shown {c d : Credentials} (h : c.Twin d) : d.shown = c.shown := by
  unfold Credentials.shown
  rw [h.token]

theorem CredentialSet.shownHalf_twin {c d : Option Credentials} (h : Option.Rel Credentials.Twin c d) :
    shownHalf d = shownHalf c := by
  cases h with
  | none => rfl
  | some h => rw [shownHalf, shownHalf, h.shown]

namespace CredentialSet.Twin

variable {c d : CredentialSet}

theorem shown (h : c.Twin d) : d.shown = c.shown := by
  unfold CredentialSet.shown
  rw [shownHalf_twin h.consumer, shownHalf_twin h.user]

theorem mismatched (h : c.Twin d) : d.mismatched = c.mismatched := by
  obtain ⟨hconsumer, huser⟩ := h
  obtain ⟨_, _⟩ := c
  obtain ⟨_, _⟩ := d
  cases hconsumer <;> cases huser <;> rfl

theorem identity (h : c.Twin d) : d.identity = c.identity := by
  obtain ⟨-, huser⟩ := h
  obtain ⟨_, _⟩ := c
  obtain ⟨_, _⟩ := d
  cases huser with
  | none => rfl
  | some h => exact congrArg Identity.user h.token

/-- Both are pairs, of twins, or neither is. -/
theorem pair (h : c.Twin d) : (c.pair = none ∧ d.pair = none) ∨ ∃ consumer user consumer' user',
    c.pair = some (consumer, user) ∧ d.pair = some (consumer', user') ∧
      consumer.Twin consumer' ∧ user.Twin user' := by
  obtain ⟨hconsumer, huser⟩ := h
  obtain ⟨_, _⟩ := c
  obtain ⟨_, _⟩ := d
  cases hconsumer with
  | none => exact .inl ⟨rfl, rfl⟩
  | some hconsumer =>
    cases huser with
    | none => exact .inl ⟨rfl, rfl⟩
    | some huser => exact .inr ⟨_, _, _, _, rfl, rfl, hconsumer, huser⟩

theorem orElse {c' d' : CredentialSet} (h : c.Twin d) (h' : c'.Twin d') :
    (c.orElse c').Twin (d.orElse d') := by
  have hhalf : ∀ {a b a' b' : Option Credentials}, Option.Rel Credentials.Twin a b →
      Option.Rel Credentials.Twin a' b' → Option.Rel Credentials.Twin (a <|> a') (b <|> b') := by
    intro a b a' b' h h'
    cases h with
    | none => exact h'
    | some h => exact .some h
  exact ⟨hhalf h.consumer h'.consumer, hhalf h.user h'.user⟩

end CredentialSet.Twin

theorem Delivery.Twin.of {creds creds' : CredentialSet} (h : creds.Twin creds') (item : Item) :
    (Delivery.of item creds).Twin (.of item creds') := ⟨rfl, h.consumer, h.user⟩

theorem Delivery.Twin.shown {d e : Delivery} (h : d.Twin e) (payload : Json.Value → String)
    (headers : Json.Fields → String) : e.shown payload headers = d.shown payload headers := by
  unfold Delivery.shown
  rw [h.item, CredentialSet.shownHalf_twin h.consumer, CredentialSet.shownHalf_twin h.user]

/-! ## What actions do to them -/

/-- Actions that bear no credentials. -/
def Action.IsBlind : Action → Prop
  | .openSession .. | .dispatch _ => False
  | _ => True

theorem Credentials.Twin.checkCredentials {c d : Credentials} (h : c.Twin d) (whose : String) :
    Feed.Path.checkCredentials whose d = Feed.Path.checkCredentials whose c := by
  rw [Feed.Path.checkCredentials, Feed.Path.checkCredentials, h.token, h.passes, h.passesToo]

/-- A session is opened without regard to the secrets. -/
theorem Feed.Path.openSession_twin {consumer consumer' user user' : Credentials}
    (hconsumer : consumer.Twin consumer') (huser : user.Twin user') (x : Feed.Path) :
    x.openSession consumer' user' = x.openSession consumer user := by
  have hauthorization : authorizationOf consumer' user' = authorizationOf consumer user := by
    unfold authorizationOf
    rw [hconsumer.token, huser.token]
  rw [openSession, openSession, hconsumer.checkCredentials, huser.checkCredentials, hauthorization]

namespace World.Twin

variable {w w' : World StatusFeed}

theorem perform (h : w.Twin w') (hp : p.Twin q) {action : Action} (haction : action.IsBlind) :
    (w'.perform q StatusFeed.backend action).1 = (w.perform p StatusFeed.backend action).1 ∧
      (w.perform p StatusFeed.backend action).2.Twin (w'.perform q StatusFeed.backend action).2 := by
  obtain ⟨backend, history, control, counters, sink, now⟩ := w
  obtain ⟨backend', history', control', counters', sink', now'⟩ := w'
  obtain ⟨rfl, rfl, rfl, rfl, rfl, hsink⟩ := h
  cases action with
  | openSession | dispatch => exact haction.elim
  | suspend asked =>
    simp only [World.perform, hp.settings]
    exact ⟨trivial, rfl, rfl, rfl, rfl, rfl, hsink⟩
  | _ => exact ⟨rfl, rfl, rfl, rfl, rfl, rfl, hsink⟩

theorem openSession (h : w.Twin w') {consumer consumer' user user' : Credentials}
    (hconsumer : consumer.Twin consumer') (huser : user.Twin user') (path : PathId) :
    (w'.perform q StatusFeed.backend (.openSession path consumer' user')).1.value =
        (w.perform p StatusFeed.backend (.openSession path consumer user)).1.value ∧
      (w.perform p StatusFeed.backend (.openSession path consumer user)).2.Twin
        (w'.perform q StatusFeed.backend (.openSession path consumer' user')).2 := by
  have hopen : StatusFeed.openSession path consumer' user' w'.backend =
      StatusFeed.openSession path consumer user w.backend := by
    rw [StatusFeed.openSession, StatusFeed.openSession, h.backend,
      Feed.Path.openSession_twin hconsumer huser]
  refine ⟨congrArg Prod.fst hopen, { h with backend := congrArg Prod.snd hopen }⟩

theorem dispatch (h : w.Twin w') {d e : Delivery} (hd : d.Twin e) :
    (w'.perform q StatusFeed.backend (.dispatch e)).1.value =
        (w.perform p StatusFeed.backend (.dispatch d)).1.value ∧
      (w.perform p StatusFeed.backend (.dispatch d)).2.Twin
        (w'.perform q StatusFeed.backend (.dispatch e)).2 := by
  have hrefusal : w'.sink.refusal e = w.sink.refusal d := by
    rw [Sink.refusal, Sink.refusal, h.sink.offered, h.sink.rule _ d e hd]
  have hoffered : w'.sink.offered + 1 = w.sink.offered + 1 := congrArg (· + 1) h.sink.offered
  simp only [World.perform, Sink.accept, hrefusal]
  split
  · exact ⟨rfl, { h with sink := ⟨hoffered, h.sink.accepted, h.sink.rule⟩ }⟩
  · exact ⟨rfl, { h with sink := ⟨hoffered, .cons hd h.sink.accepted, h.sink.rule⟩ }⟩

end World.Twin

/-! ## What plans do -/

/-- Plans that take the same steps but for the secrets in them. -/
inductive Plan.Twin : Plan α → Plan α → Prop
  | done (a : α) : Twin (.done a) (.done a)
  | act {action : Action} {next next' : action.Reply → Plan α} :
      action.IsBlind → (∀ r, Twin (next r) (next' r)) → Twin (.act action next) (.act action next')
  | openSession {path : PathId} {consumer consumer' user user' : Credentials}
      {next next' : Except SessionFailure Unit → Plan α} :
      consumer.Twin consumer' → user.Twin user' → (∀ r, Twin (next r) (next' r)) →
      Twin (.act (.openSession path consumer user) next) (.act (.openSession path consumer' user') next')
  | dispatch {d e : Delivery} {next next' : Except String Unit → Plan α} :
      d.Twin e → (∀ r, Twin (next r) (next' r)) → Twin (.act (.dispatch d) next) (.act (.dispatch e) next')

namespace Plan.Twin

theorem bind {plan plan' : Plan α} {f f' : α → Plan β} (h : plan.Twin plan')
    (hf : ∀ a, (f a).Twin (f' a)) : (plan >>= f).Twin (plan' >>= f') := by
  induction h with
  | done a => exact hf a
  | act haction _ ih => exact .act haction ih
  | openSession hconsumer huser _ ih => exact .openSession hconsumer huser ih
  | dispatch hd _ ih => exact .dispatch hd ih

theorem one_bind {action : Action} {f f' : action.Reply → Plan α} (haction : action.IsBlind)
    (hf : ∀ r, (f r).Twin (f' r)) : (Plan.one action >>= f).Twin (Plan.one action >>= f') :=
  .act haction hf

/-- Twins go on alike after the same reply. -/
theorem of_eq {γ : Type} {next next' : γ → Plan α} (h : ∀ r, (next r).Twin (next' r)) {r r' : γ}
    (hr : r' = r) : (next r).Twin (next' r') := by
  subst hr
  exact h r'

theorem pure (a : α) : (Pure.pure a : Plan α).Twin (Pure.pure a) := .done a

end Plan.Twin

namespace Poller

open Plan

variable {who : Identity} {creds creds' : CredentialSet} {path : PathId}

theorem deliver_twin (h : creds.Twin creds') (item : Item) :
    (deliver who creds item).Twin (deliver who creds' item) := by
  refine .dispatch (.of h item) ?_
  intro r
  match r with
  | .error reason => exact .pure _
  | .ok () => exact .one_bind trivial fun _ => .pure _

theorem offer_twin (hp : p.Twin q) (h : creds.Twin creds') (items : List Item)
    (report : CycleReport) : (p.offer who creds items report).Twin (q.offer who creds' items report) := by
  induction items generalizing report with
  | nil => exact .pure _
  | cons item rest ih =>
    have hcheck : (p.isRepeated who item.id).Twin (q.isRepeated who item.id) := by
      unfold isRepeated
      rw [hp.settings]
      split
      · exact .act trivial fun _ => .pure _
      · exact .pure _
    refine hcheck.bind fun repeated => ?_
    split
    · exact ih _
    · refine (deliver_twin h item).bind fun r => ?_
      match r with
      | .error _ => exact .pure _
      | .ok () => exact ih _

theorem poll_twin (hp : p.Twin q) (h : creds.Twin creds') (cursor : Option String)
    (params : Json.Fields) :
    (p.poll path who cursor params creds).Twin (q.poll path who cursor params creds') := by
  refine .one_bind trivial fun r => ?_
  match r with
  | .error (.rateLimited asked) =>
    exact .one_bind trivial fun _ => .one_bind trivial fun _ => .pure _
  | .error (.fetch e) => exact .one_bind trivial fun _ => .pure _
  | .ok items =>
    refine (offer_twin hp h items {}).bind fun r => ?_
    match r with
    | .error _ => exact .pure _
    | .ok report =>
      exact .one_bind trivial fun _ => .one_bind trivial fun _ => .one_bind trivial fun _ => .pure _

theorem submit_twin (h : creds.Twin creds') (payload : Option Json.Value) (headers : Json.Fields) :
    (submit path who payload headers creds).Twin (submit path who payload headers creds') := by
  unfold submit
  split
  · exact .pure _
  · refine .one_bind trivial fun _ => .one_bind trivial fun r => ?_
    match r with
    | .error _ => exact .one_bind trivial fun _ => .pure _
    | .ok none => exact .pure _
    | .ok (some item) =>
      refine (deliver_twin h item).bind fun r => ?_
      match r with
      | .error _ => exact .pure _
      | .ok () => exact .pure _

theorem withSession_twin (h : creds.Twin creds') {plan plan' : Plan (Except Failure α)}
    (hplan : plan.Twin plan') : (withSession path creds plan).Twin (withSession path creds' plan') := by
  unfold withSession
  obtain ⟨hnone, hnone'⟩ | ⟨consumer, user, consumer', user', hpair, hpair', hconsumer, huser⟩ := h.pair
  · rw [hnone, hnone']
    exact hplan
  · rw [hpair, hpair']
    refine .openSession hconsumer huser fun r => ?_
    match r with
    | .error _ => exact .pure _
    | .ok () => exact hplan.bind fun _ => .one_bind trivial fun _ => .pure _

theorem runCycle_twin (hp : p.Twin q) : p.runCycle.Twin q.runCycle := by
  unfold runCycle
  rw [hp.background.mismatched, hp.background.identity, hp.settings]
  refine .one_bind trivial fun s => ?_
  split
  · exact .pure _
  · refine .one_bind trivial fun _ => ?_
    split
    · exact .pure _
    · exact .one_bind trivial fun cursor =>
        withSession_twin hp.background (poll_twin hp hp.background cursor _)

theorem tick_twin (hp : p.Twin q) : p.tick.Twin q.tick := by
  refine .one_bind trivial fun s => ?_
  split
  · exact .pure _
  · exact (runCycle_twin hp).bind fun _ => .pure _

section Commands

variable {c d : Command}

theorem credentialsOf_twin (hp : p.Twin q) (h : c.Twin d) :
    (p.credentialsOf c).Twin (q.credentialsOf d) :=
  CredentialSet.Twin.orElse ⟨h.consumer, h.user⟩ hp.background

theorem commandPoll_twin (hp : p.Twin q) (hc : c.Twin d) (h : creds.Twin creds') :
    (p.commandPoll path who creds c).Twin (q.commandPoll path who creds' d) := by
  have hd : q.commandPoll path who creds' d = q.commandPoll path who creds' c := by rw [hc.rest]; rfl
  rw [hd]
  unfold commandPoll
  rw [hp.settings]
  split
  · have hstart : (startOf who c).Twin (startOf who c) := by
      unfold startOf
      split
      · exact .pure _
      · exact .act trivial fun _ => .pure _
    refine hstart.bind fun cursor => (poll_twin hp h cursor _).bind fun r => ?_
    match r with
    | .error _ => exact .pure _
    | .ok _ => exact .pure _
  · exact .pure _

theorem commandUpdate_twin (hc : c.Twin d) (h : creds.Twin creds') :
    (commandUpdate path who creds c).Twin (commandUpdate path who creds' d) := by
  have hd : commandUpdate path who creds' d = commandUpdate path who creds' c := by rw [hc.rest]; rfl
  rw [hd]
  unfold commandUpdate
  split
  · refine (submit_twin h _ _).bind fun r => ?_
    match r with
    | .error _ => exact .pure _
    | .ok _ => exact .pure _
  · exact .pure _

theorem handle_twin (hp : p.Twin q) (hc : c.Twin d) : (p.handle c).Twin (q.handle d) := by
  have hcreds := credentialsOf_twin hp hc
  unfold handle
  dsimp only
  rw [hcreds.mismatched, hcreds.identity]
  split
  · exact .pure _
  · refine .one_bind trivial fun r => ?_
    match r with
    | .error _ => exact .pure _
    | .ok path =>
      refine withSession_twin hcreds ((commandPoll_twin hp hc hcreds).bind fun r => ?_)
      match r with
      | .error _ => exact .pure _
      | .ok poll =>
        refine (commandUpdate_twin hc hcreds).bind fun r => ?_
        match r with
        | .error _ => exact .pure _
        | .ok _ => exact .pure _

end Commands

end Poller

namespace Operation

variable {op op' : Operation}

theorem credentials_twin (hp : p.Twin q) (h : op.Twin op') :
    (op.credentials p).Twin (op'.credentials q) := by
  cases h with
  | cycle | tick => exact hp.background
  | command h => exact Poller.credentialsOf_twin hp h

theorem plan_twin (hp : p.Twin q) (h : op.Twin op') : (op.plan p).Twin (op'.plan q) := by
  cases h with
  | cycle => exact (Poller.runCycle_twin hp).bind fun _ => .pure _
  | tick =>
    refine (Poller.tick_twin hp).bind fun r => ?_
    match r with
    | none => exact .pure _
    | some _ => exact .pure _
  | command h => exact (Poller.handle_twin hp h).bind fun _ => .pure _

end Operation

/-! ## Whole runs -/

/-- What can happen next in a course over a status feed: an operation begins or does its next action,
time passes, polling is resumed from outside or by a timer, or the feed and its clock change. -/
inductive Move where
  | begin (op : Operation)
  | act (i : Nat)
  | time (now : Nat)
  | resume
  | timer (generation : Nat)
  | feed (change : StatusFeed → StatusFeed)

def Course.move (p : Poller) (c : Course StatusFeed) : Move → Course StatusFeed
  | .begin op => c.begin p op
  | .act i => c.act p StatusFeed.backend i
  | .time now => { c with world := { c.world with now := max c.world.now now } }
  | .resume => { c with world := { c.world with control := (c.world.control.resume c.world.now).2 } }
  | .timer generation => { c with
      world := { c.world with
        control := (c.world.control.resumeFromTimer generation c.world.now).2 } }
  | .feed change => { c with world := { c.world with backend := change c.world.backend } }

/-- A course is whatever its moves make of its start. -/
theorem Rules.Later.exists_moves {R : Rules p StatusFeed.backend} {c c' : Course StatusFeed}
    (h : R.Later c c') : ∃ moves : List Move, c' = moves.foldl (Course.move p) c := by
  induction h with
  | refl => exact ⟨[], rfl⟩
  | @tail c' c'' _ hs ih =>
    obtain ⟨moves, rfl⟩ := ih
    have hmove : ∀ move, c'' = Course.move p (moves.foldl (Course.move p) c) move →
        ∃ moves : List Move, c'' = moves.foldl (Course.move p) c := by
      rintro move rfl
      exact ⟨moves ++ [move], by rw [List.foldl_append]; rfl⟩
    cases hs with
    | @begin op _ => exact hmove (.begin op) rfl
    | @act i op action next hi =>
      refine hmove (.act i) ?_
      simp only [Course.move, Course.act, hi]
    | @meanwhile w hw =>
      cases hw with
      | @time now hle =>
        refine hmove (.time now) ?_
        simp only [Course.move, Nat.max_eq_right hle]
      | resume => exact hmove .resume rfl
      | timer generation => exact hmove (.timer generation) rfl
      | @backend s hs => exact hmove (.feed fun _ => s) rfl

inductive Move.Twin : Move → Move → Prop
  | begin {op op' : Operation} : op.Twin op' → Twin (.begin op) (.begin op')
  | act (i : Nat) : Twin (.act i) (.act i)
  | time (now : Nat) : Twin (.time now) (.time now)
  | resume : Twin .resume .resume
  | timer (generation : Nat) : Twin (.timer generation) (.timer generation)
  | feed (change : StatusFeed → StatusFeed) : Twin (.feed change) (.feed change)

/-- Entries of the same action, but for the secrets in it, and with the same reply. -/
inductive Entry.Twin : Entry StatusFeed → Entry StatusFeed → Prop
  | act {i : Nat} {op op' : Operation} {w w' : World StatusFeed} {action : Action}
      {reply reply' : action.Reply} : action.IsBlind → w.Twin w' → reply' = reply →
      Twin ⟨i, op, w, action, reply⟩ ⟨i, op', w', action, reply'⟩
  | openSession {i : Nat} {op op' : Operation} {w w' : World StatusFeed} {path : PathId}
      {consumer consumer' user user' : Credentials} {reply reply' : Except SessionFailure Unit} :
      consumer.Twin consumer' → user.Twin user' → w.Twin w' → reply' = reply →
      Twin ⟨i, op, w, .openSession path consumer user, reply⟩
        ⟨i, op', w', .openSession path consumer' user', reply'⟩
  | dispatch {i : Nat} {op op' : Operation} {w w' : World StatusFeed} {d e : Delivery}
      {reply reply' : Except String Unit} : d.Twin e → w.Twin w' → reply' = reply →
      Twin ⟨i, op, w, .dispatch d, reply⟩ ⟨i, op', w', .dispatch e, reply'⟩

structure Task.Twin (t t' : Task) : Prop where
  op : t.op.Twin t'.op
  plan : t.plan.Twin t'.plan

structure Course.Twin (c c' : Course StatusFeed) : Prop where
  world : c.world.Twin c'.world
  log : List.Forall₂ Entry.Twin c.log c'.log
  tasks : List.Forall₂ Task.Twin c.tasks c'.tasks

theorem forall₂_getElem? {R : α → β → Prop} {l : List α} {l' : List β} (h : List.Forall₂ R l l')
    (i : Nat) : Option.Rel R l[i]? l'[i]? := by
  induction h generalizing i with
  | nil => exact .none
  | cons hR _ ih =>
    cases i with
    | zero => exact .some hR
    | succ i => exact ih i

theorem forall₂_set {R : α → β → Prop} {l : List α} {l' : List β} (h : List.Forall₂ R l l')
    (i : Nat) {a : α} {a' : β} (ha : R a a') : List.Forall₂ R (l.set i a) (l'.set i a') := by
  induction h generalizing i with
  | nil => exact .nil
  | cons hR hrest ih =>
    cases i with
    | zero => exact .cons ha hrest
    | succ i => exact .cons hR (ih i)

namespace Course.Twin

variable {c c' : Course StatusFeed}

theorem act (h : c.Twin c') (hp : p.Twin q) (i : Nat) :
    (c.act p StatusFeed.backend i).Twin (c'.act q StatusFeed.backend i) := by
  unfold Course.act
  have htask := forall₂_getElem? h.tasks i
  generalize c.tasks[i]? = t at htask
  generalize c'.tasks[i]? = t' at htask
  cases htask with
  | none => exact h
  | @some t t' ht =>
    obtain ⟨op, plan⟩ := t
    obtain ⟨op', plan'⟩ := t'
    obtain ⟨hop, hplan⟩ := ht
    dsimp only at hop hplan
    cases hplan with
    | done => exact h
    | @act action next next' haction hnext =>
      obtain ⟨hreply, hworld⟩ := h.world.perform hp haction
      have hvalue := congrArg Delayed.value hreply
      refine ⟨hworld, .cons (.act haction h.world hvalue) h.log, forall₂_set h.tasks i ⟨hop, ?_⟩⟩
      exact .of_eq hnext hvalue
    | @openSession path consumer consumer' user user' next next' hconsumer huser hnext =>
      obtain ⟨hvalue, hworld⟩ := h.world.openSession (p := p) (q := q) hconsumer huser path
      refine ⟨hworld, .cons (.openSession hconsumer huser h.world hvalue) h.log,
        forall₂_set h.tasks i ⟨hop, ?_⟩⟩
      exact .of_eq hnext hvalue
    | @dispatch d e next next' hd hnext =>
      obtain ⟨hvalue, hworld⟩ := h.world.dispatch (p := p) (q := q) hd
      refine ⟨hworld, .cons (.dispatch hd h.world hvalue) h.log, forall₂_set h.tasks i ⟨hop, ?_⟩⟩
      exact .of_eq hnext hvalue

theorem move (h : c.Twin c') (hp : p.Twin q) {m m' : Move} (hm : m.Twin m') :
    (c.move p m).Twin (c'.move q m') := by
  cases hm with
  | begin hop =>
    refine { h with tasks := ?_ }
    exact List.rel_append h.tasks (.cons ⟨hop, Operation.plan_twin hp hop⟩ .nil)
  | act i => exact h.act hp i
  | time now =>
    refine { h with world := { h.world with now := ?_ } }
    exact congrArg (max · now) h.world.now
  | resume =>
    refine { h with world := { h.world with control := ?_ } }
    simp only [Course.move, h.world.control, h.world.now]
  | timer generation =>
    refine { h with world := { h.world with control := ?_ } }
    simp only [Course.move, h.world.control, h.world.now]
  | feed change =>
    refine { h with world := { h.world with backend := ?_ } }
    exact congrArg change h.world.backend

theorem moves (h : c.Twin c') (hp : p.Twin q) {moves moves' : List Move}
    (hm : List.Forall₂ Move.Twin moves moves') :
    (moves.foldl (Course.move p) c).Twin (moves'.foldl (Course.move q) c') := by
  induction hm generalizing c c' with
  | nil => exact h
  | cons hm _ ih => exact ih (h.move hp hm)

end Course.Twin

/-! ## What can be observed -/

/-- What an operation has come to, once it is done. -/
def Task.outcome (t : Task) : Option Outcome :=
  match t.plan with
  | .done outcome => some outcome
  | .act .. => none

/-- The texts for people to read of the credentials in an action. -/
def Entry.shown {σ : Type} (payload : Json.Value → String) (headers : Json.Fields → String)
    (e : Entry σ) : List String :=
  match e.action with
  | .openSession _ consumer user => [consumer.shown, user.shown]
  | .dispatch d => [d.shown payload headers]
  | _ => []

/-- Nothing that can be observed is different: the requests, the outcomes, what is remembered, the
control, and what is shown of credentials and of what is delivered under them. -/
structure Course.LooksLike (p q : Poller) (c c' : Course StatusFeed) : Prop where
  requests : c'.log.map StatusFeed.sent = c.log.map StatusFeed.sent
  feed : c'.world.backend = c.world.backend
  outcomes : c'.tasks.map Task.outcome = c.tasks.map Task.outcome
  history : c'.world.history = c.world.history
  control : c'.world.control = c.world.control
  counters : c'.world.counters = c.world.counters
  entriesShown : ∀ payload headers,
    c'.log.map (Entry.shown payload headers) = c.log.map (Entry.shown payload headers)
  deliveriesShown : ∀ payload headers, c'.world.sink.accepted.map (Delivery.shown payload headers) =
    c.world.sink.accepted.map (Delivery.shown payload headers)
  credentialsShown : c'.tasks.map (fun t => (t.op.credentials q).shown) =
    c.tasks.map (fun t => (t.op.credentials p).shown)
  backgroundShown : q.background.shown = p.background.shown

/-- Lists whose members look alike one by one. -/
theorem map_eq_of_forall₂ {γ : Type} {R : α → β → Prop} {f : α → γ} {g : β → γ} {l : List α}
    {l' : List β} (h : List.Forall₂ R l l') (hfg : ∀ a a', R a a' → g a' = f a) :
    l'.map g = l.map f := by
  have hmaps : List.Forall₂ (· = ·) (l.map f) (l'.map g) :=
    List.rel_map (fun a a' ha => (hfg a a' ha).symm) h
  rw [List.forall₂_eq_eq_eq] at hmaps
  exact hmaps.symm

namespace Entry.Twin

variable {e e' : Entry StatusFeed}

theorem sent (h : e.Twin e') : StatusFeed.sent e' = StatusFeed.sent e := by
  cases h with
  | @act i op op' w w' action reply reply' _ hw =>
    cases action <;> simp only [StatusFeed.sent, hw.backend]
  | openSession | dispatch => rfl

theorem shown (h : e.Twin e') (payload : Json.Value → String) (headers : Json.Fields → String) :
    e'.shown payload headers = e.shown payload headers := by
  cases h with
  | @act i op op' w w' action => cases action <;> rfl
  | openSession hconsumer huser =>
    simp only [Entry.shown, hconsumer.shown, huser.shown]
  | dispatch hd =>
    simp only [Entry.shown, hd.shown payload headers]

end Entry.Twin

theorem Task.Twin.outcome {t t' : Task} (h : t.Twin t') : t'.outcome = t.outcome := by
  obtain ⟨op, plan⟩ := t
  obtain ⟨op', plan'⟩ := t'
  obtain ⟨-, hplan⟩ := h
  dsimp only at hplan
  cases hplan <;> rfl

theorem Course.Twin.looksLike {c c' : Course StatusFeed} (h : c.Twin c') (hp : p.Twin q) :
    c.LooksLike p q c' where
  requests := map_eq_of_forall₂ h.log fun _ _ he => he.sent
  feed := h.world.backend
  outcomes := map_eq_of_forall₂ h.tasks fun _ _ ht => ht.outcome
  history := h.world.history
  control := h.world.control
  counters := h.world.counters
  entriesShown payload headers := map_eq_of_forall₂ h.log fun _ _ he => he.shown payload headers
  deliveriesShown payload headers :=
    map_eq_of_forall₂ h.world.sink.accepted fun _ _ hd => hd.shown payload headers
  credentialsShown :=
    map_eq_of_forall₂ h.tasks fun _ _ ht => (Operation.credentials_twin hp ht.op).shown
  backgroundShown := hp.background.shown

/-- A poller begins with the same world whatever its secrets are. -/
theorem World.init_twin (hp : p.Twin q) (sink sink' : Sink) (f : StatusFeed) :
    World.init q StatusFeed.backend sink' f =
      (World.init p StatusFeed.backend sink f).map fun w => { w with sink := sink' } := by
  unfold World.init
  rw [hp.settings]
  cases p.settings.validate <;> rfl

/-- Two runs of the same moves over a status feed that differ in secrets only, with sinks that judge
alike, cannot be told apart. -/
theorem secrets_unobserved (hp : p.Twin q) {sink sink' : Sink} (hsink : sink.Twin sink')
    {moves moves' : List Move} (hmoves : List.Forall₂ Move.Twin moves moves') (f : StatusFeed) :
    World.init q StatusFeed.backend sink' f =
        (World.init p StatusFeed.backend sink f).map (fun w => { w with sink := sink' }) ∧
      ∀ w, World.init p StatusFeed.backend sink f = .ok w →
        (moves.foldl (Course.move p) { world := w }).LooksLike p q
          (moves'.foldl (Course.move q) { world := { w with sink := sink' } }) := by
  refine ⟨World.init_twin hp sink sink' f, ?_⟩
  intro w hw
  obtain ⟨-, backend, rfl⟩ := World.init_eq_ok hw
  have hstart : Course.Twin
      { world := ⟨backend, .new p.settings.maxHistory p.settings.skipDuplicates, {}, [], sink, 0⟩ }
      { world := ⟨backend, .new p.settings.maxHistory p.settings.skipDuplicates, {}, [], sink', 0⟩ } :=
    ⟨⟨rfl, rfl, rfl, rfl, rfl, hsink⟩, .nil, .nil⟩
  exact (hstart.moves hp hmoves).looksLike hp

namespace StatusFeed

/-- The operator of the same application, with other secrets. -/
def forOperatorToo : Poller where
  settings := {}
  background := { consumer := some ⟨"app", "s2"⟩, user := some ⟨"ops", "t2"⟩ }

/-- A cycle goes on beside a poll for another user. -/
def besideAnn (secret : String) : List Move :=
  .begin .cycle :: .begin (.command { poll := some true, user := some ⟨"ann", secret⟩ }) ::
    [0, 0, 0, 0, 1, 1, 1, 1, 0, 0, 1, 0, 1].map .act

theorem besideAnn_secrets_unobserved :
    forOperator.Twin forOperatorToo ∧
      List.Forall₂ Move.Twin (besideAnn "u") (besideAnn "u2") ∧
      ((besideAnn "u").foldl (Course.move forOperator)
        { world := { backend := bareTimeline.create.2, history := .new 200 false } }).log.filterMap
          sent ≠ [] ∧
      ((besideAnn "u").foldl (Course.move forOperator)
        { world := { backend := bareTimeline.create.2, history := .new 200 false } }).LooksLike
          forOperator forOperatorToo
        ((besideAnn "u2").foldl (Course.move forOperatorToo)
          { world := { backend := bareTimeline.create.2, history := .new 200 false } }) := by
  have hpoller : forOperator.Twin forOperatorToo :=
    ⟨rfl, .some ⟨rfl, fun _ => rfl, fun _ => rfl⟩, .some ⟨rfl, fun _ => rfl, fun _ => rfl⟩⟩
  have hmoves : List.Forall₂ Move.Twin (besideAnn "u") (besideAnn "u2") := by
    refine .cons (.begin .cycle) (.cons (.begin (.command ⟨rfl, .none, ?_⟩)) ?_)
    · exact .some ⟨rfl, fun _ => rfl, fun _ => rfl⟩
    · exact List.forall₂_same.mpr fun m hm => by
        obtain ⟨i, -, rfl⟩ := List.mem_map.mp hm
        exact .act i
  have hsink : ({} : Sink).Twin {} := ⟨rfl, .nil, fun _ _ _ _ => rfl⟩
  refine ⟨hpoller, hmoves, ?_, (secrets_unobserved hpoller hsink hmoves bareTimeline).2 _ rfl⟩
  decide

end StatusFeed
end FeedPoller
