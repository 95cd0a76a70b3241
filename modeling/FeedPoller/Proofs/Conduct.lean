import FeedPoller.Proofs.Terms

/-! How an operation conducts itself, whatever goes on beside it: which path it uses, what it calls
there, and under which credentials it delivers and records. With both halves of its credentials it
opens a session before anything else and closes it after everything else. Main statement: so it is in
every course, whichever operations begin and however the world moves (`conduct_of_later`). -/

namespace FeedPoller

variable {σ α : Type} {p : Poller} {b : Backend σ}

/-! ## Calls -/

/-- A call of a path. Reads and updates are asked for alike. -/
inductive Call where
  | opened (path : PathId) (consumer user : Credentials) (accepted : Bool)
  | asked (path : PathId)
  | closed (path : PathId)
  deriving DecidableEq, Repr

/-- The call that an action is, if it is one. -/
def Entry.call (e : Entry σ) : Option Call :=
  match e with
  | ⟨_, _, _, .openSession path consumer user, reply⟩ =>
    some (.opened path consumer user reply.isOk)
  | ⟨_, _, _, .closeSession path, _⟩ => some (.closed path)
  | ⟨_, _, _, .read path _ _, _⟩ => some (.asked path)
  | ⟨_, _, _, .update path _ _, _⟩ => some (.asked path)
  | _ => none

/-- The calls in a log, the first one first. -/
def calls (log : List (Entry σ)) : List Call := (log.filterMap Entry.call).reverse

theorem calls_cons (e : Entry σ) (log : List (Entry σ)) :
    calls (e :: log) = calls log ++ e.call.toList := by
  cases h : e.call <;> simp [calls, h]

/-- The session of a path after one more call: whom it is for, if it is active. -/
def Call.session (path : PathId) (before : Option (Credentials × Credentials)) :
    Call → Option (Credentials × Credentials)
  | .opened path' consumer user accepted =>
    if path' = path ∧ accepted = true then some (consumer, user) else before
  | .asked _ => before
  | .closed path' => if path' = path then none else before

/-- The session of a path after calls, when none was active before. -/
def sessionOf (path : PathId) (calls : List Call) : Option (Credentials × Credentials) :=
  calls.foldl (Call.session path) none

theorem sessionOf_concat (path : PathId) (calls : List Call) (call : Call) :
    sessionOf path (calls ++ [call]) = call.session path (sessionOf path calls) := by
  simp [sessionOf]

theorem sessionOf_calls_cons (path : PathId) (e : Entry σ) (log : List (Entry σ)) :
    sessionOf path (calls (e :: log)) =
      e.call.elim (sessionOf path (calls log)) (Call.session path (sessionOf path (calls log))) := by
  rw [calls_cons]
  cases e.call with
  | none => rw [Option.toList_none, List.append_nil, Option.elim_none]
  | some call => rw [Option.toList_some, sessionOf_concat, Option.elim_some]

theorem sessionOf_asked {path path' : PathId} {calls asked : List Call}
    (h : ∀ call ∈ asked, call = .asked path') :
    sessionOf path (calls ++ asked) = sessionOf path calls := by
  induction asked generalizing calls with
  | nil => rw [List.append_nil]
  | cons call rest ih =>
    obtain ⟨rfl, hrest⟩ := List.forall_mem_cons.mp h
    rw [← List.singleton_append, ← List.append_assoc, ih hrest, sessionOf_concat]
    rfl

/-- The path on which a call is made. -/
def Call.path : Call → PathId
  | .opened path .. | .asked path | .closed path => path

theorem Call.session_of_ne {path : PathId} {call : Call} (h : call.path ≠ path)
    (before : Option (Credentials × Credentials)) : call.session path before = before := by
  cases call with
  | opened path' => exact if_neg fun hand => h hand.1
  | asked => rfl
  | closed path' => exact if_neg h

/-- Calls on other paths leave a path without a session. -/
theorem sessionOf_of_forall_ne {path : PathId} {calls : List Call}
    (h : ∀ call ∈ calls, call.path ≠ path) : sessionOf path calls = none := by
  unfold sessionOf
  induction calls with
  | nil => rfl
  | cons call rest ih =>
    obtain ⟨hcall, hrest⟩ := List.forall_mem_cons.mp h
    rw [List.foldl_cons, Call.session_of_ne hcall, ih hrest]

/-! ## Brackets -/

/-- The call with which a session begins, if the credentials are a pair. -/
def opening (creds : CredentialSet) (path : PathId) : List Call :=
  match creds.pair with
  | some (consumer, user) => [.opened path consumer user true]
  | none => []

/-- The call with which it ends. -/
def closing (creds : CredentialSet) (path : PathId) : List Call :=
  if creds.pair.isSome then [.closed path] else []

/-- Calls up to some point inside the session. -/
def Inside (creds : CredentialSet) (path : PathId) (calls : List Call) : Prop :=
  ∃ asked, calls = opening creds path ++ asked ∧ ∀ call ∈ asked, call = .asked path

/-- All calls of an operation: a session that was refused, or all that is asked between the opening and
the closing of one. Without a pair there is neither. -/
def Bracketed (creds : CredentialSet) (path : PathId) (calls : List Call) : Prop :=
  (∃ consumer user, creds.pair = some (consumer, user) ∧
    calls = [.opened path consumer user false]) ∨
  ∃ asked, calls = opening creds path ++ asked ++ closing creds path ∧
    ∀ call ∈ asked, call = .asked path

theorem sessionOf_opening (creds : CredentialSet) (path : PathId) :
    sessionOf path (opening creds path) = creds.pair := by
  unfold opening
  split
  · rename_i consumer user hpair
    rw [hpair]
    simp [sessionOf, Call.session]
  · rename_i hpair
    rw [hpair]
    rfl

theorem Inside.session {creds : CredentialSet} {path : PathId} {calls : List Call}
    (h : Inside creds path calls) : sessionOf path calls = creds.pair := by
  obtain ⟨asked, rfl, hasked⟩ := h
  rw [sessionOf_asked hasked, sessionOf_opening]

theorem Inside.ask {creds : CredentialSet} {path : PathId} {calls : List Call}
    (h : Inside creds path calls) : Inside creds path (calls ++ [.asked path]) := by
  obtain ⟨asked, rfl, hasked⟩ := h
  refine ⟨asked ++ [.asked path], List.append_assoc .., ?_⟩
  intro call hcall
  rcases List.mem_append.mp hcall with hcall | hcall
  · exact hasked call hcall
  · exact List.mem_singleton.mp hcall

theorem Inside.close {creds : CredentialSet} {path : PathId} {calls : List Call}
    (h : Inside creds path calls) : Bracketed creds path (calls ++ closing creds path) := by
  obtain ⟨asked, rfl, hasked⟩ := h
  exact .inr ⟨asked, rfl, hasked⟩

/-- Whatever became of it, no session is left. -/
theorem Bracketed.session {creds : CredentialSet} {path path' : PathId} {calls : List Call}
    (h : Bracketed creds path calls) : sessionOf path' calls = none := by
  obtain ⟨consumer, user, -, rfl⟩ | ⟨asked, rfl, hasked⟩ := h
  · simp [sessionOf, Call.session]
  · unfold opening closing
    cases hpair : creds.pair with
    | none =>
      simp only [List.nil_append, Option.isSome_none, Bool.false_eq_true, if_false, List.append_nil]
      exact (sessionOf_asked hasked : sessionOf path' ([] ++ asked) = sessionOf path' [])
    | some pair =>
      simp only [Option.isSome_some, if_true]
      rw [sessionOf_concat, sessionOf_asked hasked]
      simp only [sessionOf, List.foldl_cons, List.foldl_nil, Call.session, and_true]
      split <;> rfl

/-! ## What an operation did -/

/-- The path that an action made, if it made one. -/
def Entry.made (e : Entry σ) : Option PathId :=
  match e with
  | ⟨_, _, _, .create, .ok path⟩ => some path
  | _ => none

theorem Entry.made_of_ne {e : Entry σ} (h : e.action ≠ .create) : e.made = none := by
  obtain ⟨i, op, w, action, reply⟩ := e
  cases action with
  | create => exact absurd rfl h
  | _ => rfl

/-- Whether polling was found suspended. -/
def Entry.foundSuspended (e : Entry σ) : Bool :=
  match e with
  | ⟨_, _, _, .state, .suspended⟩ => true
  | _ => false

/-- What an operation did by itself, the newest first. -/
def Chronicle.own (c : Chronicle σ) (i : Nat) : List (Entry σ) := c.log.filter (·.task = i)

theorem Chronicle.own_cons_self (w : World σ) (e : Entry σ) (log : List (Entry σ)) :
    (⟨w, e :: log⟩ : Chronicle σ).own e.task = e :: (⟨w, log⟩ : Chronicle σ).own e.task := by
  simp [own]

theorem Chronicle.own_cons_of_ne {w : World σ} {e : Entry σ} {log : List (Entry σ)} {i : Nat}
    (h : e.task ≠ i) :
    (⟨w, e :: log⟩ : Chronicle σ).own i = (⟨w, log⟩ : Chronicle σ).own i := by
  simp [own, h]

/-- An operation that is yet to begin has done nothing. -/
theorem Course.Numbered.own_next {c : Course σ} (h : c.Numbered) : c.own c.tasks.length = [] := by
  refine List.filter_eq_nil_iff.mpr ?_
  intro e he
  have hlt := h e he
  simp only [decide_eq_true_eq]
  omega

theorem Chronicle.own_subset (c : Chronicle σ) (i : Nat) : c.own i ⊆ c.log :=
  fun _ he => (List.mem_filter.mp he).1

namespace Operation

/-- A cycle, asked for by the scheduler or not. -/
def IsScheduled : Operation → Prop
  | .cycle | .tick => True
  | .command _ => False

/-- Cycles go by the background credentials. -/
theorem IsScheduled.credentials {op : Operation} (h : op.IsScheduled) (p : Poller) :
    op.credentials p = p.background := by
  cases op with
  | cycle | tick => rfl
  | command => exact h.elim

/-- Cycles use the background path, and a command uses a path that it had made. -/
def Uses (op : Operation) (past : List (Entry σ)) (path : PathId) : Prop :=
  match op with
  | .cycle | .tick => path = backgroundPath
  | .command _ => ∃ e ∈ past, e.made = some path

theorem Uses.mono {op : Operation} {past past' : List (Entry σ)} {path : PathId}
    (h : op.Uses past path) (hp : past ⊆ past') : op.Uses past' path := by
  cases op with
  | cycle | tick => exact h
  | command c =>
    obtain ⟨e, he, hmade⟩ := h
    exact ⟨e, hp he, hmade⟩

theorem IsScheduled.uses_iff {op : Operation} (h : op.IsScheduled) {past : List (Entry σ)}
    {path : PathId} : op.Uses past path ↔ path = backgroundPath := by
  cases op with
  | cycle | tick => exact Iff.rfl
  | command => exact h.elim

theorem Uses.of_nil {op : Operation} {path : PathId} (h : op.Uses ([] : List (Entry σ)) path) :
    op.IsScheduled ∧ path = backgroundPath := by
  cases op with
  | cycle | tick => exact ⟨trivial, h⟩
  | command =>
    obtain ⟨e, he, -⟩ := h
    cases he

theorem Uses.of_cons {op : Operation} {e : Entry σ} {past : List (Entry σ)} {path : PathId}
    (h : op.Uses (e :: past) path) : e.made = some path ∨ op.Uses past path := by
  cases op with
  | cycle | tick => exact .inr h
  | command =>
    obtain ⟨e', he', hmade⟩ := h
    rcases List.mem_cons.mp he' with rfl | he'
    · exact .inl hmade
    · exact .inr ⟨e', he', hmade⟩

/-- Reasons for an operation to call nothing. -/
def Forgoes (p : Poller) (op : Operation) (past : List (Entry σ)) : Prop :=
  (op.credentials p).mismatched = true ∨ (∃ e ∈ past, e.foundSuspended = true) ∨
    ∀ path, ¬ op.Uses past path

end Operation

/-- What an operation does next, given what it did before. -/
def Conduct (p : Poller) (op : Operation) (past : List (Entry σ)) (e : Entry σ) : Prop :=
  match e.action with
  | .create => ¬ op.IsScheduled ∧ calls past = []
  | .openSession path consumer user =>
    op.Uses past path ∧ (op.credentials p).pair = some (consumer, user)
  | .closeSession path => op.Uses past path ∧ (sessionOf path (calls past)).isSome = true
  | .read path _ _ | .update path _ _ =>
    op.Uses past path ∧ sessionOf path (calls past) = (op.credentials p).pair
  | .dispatch d =>
    d.consumer = (op.credentials p).consumer ∧ d.user = (op.credentials p).user
  | .record who _ => who = op.identity p
  | _ => True

/-- Operations call the paths that they use, and no others. -/
theorem Conduct.uses {op : Operation} {past : List (Entry σ)} {e : Entry σ}
    (h : Conduct p op past e) {call : Call} (hcall : e.call = some call) :
    op.Uses past call.path := by
  obtain ⟨i, op', w, action, reply⟩ := e
  cases action with
  | openSession | closeSession | read | update =>
    obtain rfl := Option.some.inj hcall
    exact h.1
  | _ => cases hcall

/-- On a path that the operation does not use, there is no change. -/
theorem Conduct.sessionOf_of_not_uses {op : Operation} {past : List (Entry σ)} {e : Entry σ}
    (h : Conduct p op past e) {path : PathId} (hnot : ¬ op.Uses past path) (log : List (Entry σ)) :
    sessionOf path (calls (e :: log)) = sessionOf path (calls log) := by
  rw [sessionOf_calls_cons]
  cases hcall : e.call with
  | none => rfl
  | some call =>
    have hne : call.path ≠ path := by
      rintro rfl
      exact hnot (h.uses hcall)
    exact Call.session_of_ne hne _

/-- What an operation that is done has called. -/
structure Settled (p : Poller) (op : Operation) (past : List (Entry σ)) : Prop where
  forgone : op.Forgoes p past → calls past = []
  bracketed : ¬ op.Forgoes p past →
    ∃ path, op.Uses past path ∧ Bracketed (op.credentials p) path (calls past)

theorem Settled.session {op : Operation} {past : List (Entry σ)} (h : Settled p op past)
    (path : PathId) : sessionOf path (calls past) = none := by
  by_cases hf : op.Forgoes p past
  · rw [h.forgone hf]
    rfl
  · obtain ⟨path', -, hb⟩ := h.bracketed hf
    exact hb.session

/-! ## On terms of its own -/

/-- The terms of an operation that does not mind the others: they leave alone what it did itself. -/
abbrev onOwn (p : Poller) (b : Backend σ) (i : Nat) (op : Operation) : Terms p b where
  task := i
  op := op
  rely c c' := c'.own i = c.own i
  owed c c' := ∃ e, c'.log = e :: c.log ∧ e.task = i ∧ e.op = op ∧ Conduct p op (c.own i) e

/-- The same with anything for conduct: what an action has to be, given what its operation did
before. -/
abbrev onOwnPast (p : Poller) (b : Backend σ) (C : Operation → List (Entry σ) → Entry σ → Prop)
    (i : Nat) (op : Operation) : Terms p b where
  task := i
  op := op
  rely c c' := c'.own i = c.own i
  owed c c' := ∃ e, c'.log = e :: c.log ∧ e.task = i ∧ e.op = op ∧ C op (c.own i) e

/-- An assertion about what an operation did. -/
abbrev Did (i : Nat) (P : List (Entry σ) → Prop) : Assertion σ := fun c => P (c.own i)

open Terms

variable {C : Operation → List (Entry σ) → Entry σ → Prop}
variable {i : Nat} {op : Operation} {P : List (Entry σ) → Prop}

theorem Did.lasts : (onOwnPast p b C i op).Lasts (Did i P) := by
  intro c c' hc hrely
  rw [Did, hrely]
  exact hc

/-- Whatever the reply, an action owes good conduct. -/
theorem Did.one {action : Action} {Q : action.Reply → List (Entry σ) → Prop}
    (h : ∀ past w reply, P past → C op past ⟨i, op, w, action, reply⟩ ∧
      Q reply (⟨i, op, w, action, reply⟩ :: past)) :
    (onOwnPast p b C i op).Ensures (Did i P) (Plan.one action) fun reply => Did i (Q reply) := by
  refine .one Did.lasts ?_
  intro c hc
  obtain ⟨hconduct, hafter⟩ := h (c.own i) c.world (c.world.perform p b action).1.value hc
  refine ⟨⟨_, rfl, rfl, rfl, hconduct⟩, ?_⟩
  have hown := Chronicle.own_cons_self (c.world.perform p b action).2
    (⟨i, op, c.world, action, (c.world.perform p b action).1.value⟩ : Entry σ) c.log
  rw [Did, Terms.perform, Chronicle.perform, hown]
  exact hafter

/-- An operation that is not given up, and what it has called so far. -/
structure Calling (op : Operation) (path : PathId) (sofar : List Call → Prop)
    (past : List (Entry σ)) : Prop where
  uses : op.Uses past path
  awake : ∀ e ∈ past, e.foundSuspended = false
  calls : sofar (calls past)

theorem Calling.cons {path : PathId} {sofar sofar' : List Call → Prop} {past : List (Entry σ)}
    {e : Entry σ} (h : Calling op path sofar past) (he : e.foundSuspended = false)
    (hcalls : sofar' (FeedPoller.calls past ++ e.call.toList)) :
    Calling op path sofar' (e :: past) := by
  refine ⟨h.uses.mono (List.subset_cons_self ..), ?_, ?_⟩
  · intro e' he'
    rcases List.mem_cons.mp he' with rfl | he'
    · exact he
    · exact h.awake e' he'
  · rw [calls_cons]
    exact hcalls

theorem Calling.settled {path : PathId} {past : List (Entry σ)}
    (h : Calling op path (Bracketed (op.credentials p) path) past)
    (hm : (op.credentials p).mismatched = false) : Settled p op past := by
  refine ⟨fun hf => ?_, fun _ => ⟨path, h.uses, h.calls⟩⟩
  obtain hm' | ⟨e, he, hsuspended⟩ | hnone := hf
  · rw [hm] at hm'
    cases hm'
  · rw [h.awake e he] at hsuspended
    cases hsuspended
  · exact absurd h.uses (hnone path)

/-- Nothing was called, and for a reason. -/
theorem Settled.of_forgoes {past : List (Entry σ)} (hf : op.Forgoes p past)
    (hcalls : calls past = []) : Settled p op past := ⟨fun _ => hcalls, fun h => absurd hf h⟩

/-! ## Inside a session -/

/-- Actions on a path and under credentials, in which no session is opened or closed. -/
def Action.IsUnder (creds : CredentialSet) (path : PathId) : Action → Prop
  | .read path' _ _ | .update path' _ _ => path' = path
  | .dispatch d => d.consumer = creds.consumer ∧ d.user = creds.user
  | .record who _ => who = creds.identity
  | .count .. | .cursor _ | .seen .. | .suspend _ => True
  | _ => False

namespace Poller

variable {creds : CredentialSet} {path : PathId}

section Only

variable {allowed : Action → Prop} {who : Identity}

theorem deliver_only {item : Item} (hdispatch : allowed (.dispatch (.of item creds)))
    (hrecord : allowed (.record who item.id)) : (deliver who creds item).Only allowed := by
  refine .bind (.one hdispatch) ?_
  intro r
  match r with
  | .error _ => exact .pure _
  | .ok () => exact .bind (.one hrecord) fun _ => .pure _

theorem offer_only (hseen : ∀ id, allowed (.seen who id))
    (hdispatch : ∀ item, allowed (.dispatch (.of item creds)))
    (hrecord : ∀ id, allowed (.record who id)) (items : List Item) (report : CycleReport) :
    (p.offer who creds items report).Only allowed := by
  induction items generalizing report with
  | nil => exact .pure _
  | cons item rest ih =>
    have hcheck : (p.isRepeated who item.id).Only allowed := by
      unfold isRepeated
      split
      · exact .one (hseen item.id)
      · exact .pure _
    refine .bind hcheck ?_
    intro repeated
    cases repeated with
    | true => exact ih _
    | false =>
      refine .bind (deliver_only (hdispatch item) (hrecord item.id)) ?_
      intro r
      match r with
      | .error _ => exact .pure _
      | .ok () => exact ih _

/-- A poll begins with its only read; if that fails, it ends with the failure. -/
theorem poll_reads (hcount : ∀ counter n, allowed (.count counter n))
    (hsuspend : ∀ asked, allowed (.suspend asked))
    (hoffer : ∀ items, (p.offer who creds items {}).Only allowed) (path : PathId)
    (cursor : Option String) (params : Json.Fields) :
    ∃ next : Except ReadFailure (List Item) → Plan (Except Failure CycleReport),
      p.poll path who cursor params creds = (Plan.one (.read path cursor params) >>= next) ∧
        (∀ r, (next r).Only allowed) ∧
        ∀ e, next (.error (.fetch e)) =
          (Plan.one (.count .fetchErrors 1) >>= fun _ => pure (.error (.fetch e))) := by
  refine ⟨_, rfl, ?_, fun _ => rfl⟩
  intro r
  match r with
  | .error (.rateLimited asked) =>
    exact .bind (.one (hcount ..)) fun _ => .bind (.one (hsuspend asked)) fun _ => .pure _
  | .error (.fetch _) => exact .bind (.one (hcount ..)) fun _ => .pure _
  | .ok items =>
    refine .bind (hoffer items) ?_
    intro r
    match r with
    | .error _ => exact .pure _
    | .ok _ =>
      exact .bind (.one (hcount ..)) fun _ => .bind (.one (hcount ..)) fun _ =>
        .bind (.one (hcount ..)) fun _ => .pure _

end Only

theorem poll_only (cursor : Option String) (params : Json.Fields) :
    (p.poll path creds.identity cursor params creds).Only (Action.IsUnder creds path) := by
  have hoffer : ∀ items, (p.offer creds.identity creds items {}).Only (Action.IsUnder creds path) :=
    fun items => offer_only (fun _ => trivial) (fun _ => ⟨rfl, rfl⟩) (fun _ => rfl) items {}
  obtain ⟨next, hpoll, hnext, -⟩ := poll_reads (fun _ _ => trivial) (fun _ => trivial)
    hoffer path cursor params
  rw [hpoll]
  exact .bind (.one rfl) hnext

theorem commandPoll_only (c : Command) :
    (p.commandPoll path creds.identity creds c).Only (Action.IsUnder creds path) := by
  unfold commandPoll
  split
  · have hstart : (startOf creds.identity c).Only (Action.IsUnder creds path) := by
      unfold startOf
      split
      · exact .pure _
      · exact .one trivial
    refine .bind hstart fun cursor => .bind (poll_only cursor _) ?_
    intro r
    cases r <;> exact .pure _
  · exact .pure _

theorem submit_only (payload : Option Json.Value) (headers : Json.Fields) :
    (submit path creds.identity payload headers creds).Only (Action.IsUnder creds path) := by
  unfold submit
  split
  · exact .pure _
  · refine .bind (.one trivial) fun _ => .bind (.one rfl) ?_
    intro r
    match r with
    | .error _ => exact .bind (.one trivial) fun _ => .pure _
    | .ok none => exact .pure _
    | .ok (some item) =>
      refine .bind (deliver_only ⟨rfl, rfl⟩ rfl) ?_
      intro r
      match r with
      | .error _ => exact .pure _
      | .ok () => exact .pure _

theorem commandUpdate_only (c : Command) :
    (commandUpdate path creds.identity creds c).Only (Action.IsUnder creds path) := by
  unfold commandUpdate
  split
  · refine .bind (submit_only _ _) ?_
    intro r
    cases r <;> exact .pure _
  · exact .pure _

end Poller

/-- Inside its session an operation conducts itself, and stays inside. -/
theorem inside_only {path : PathId} {plan : Plan α}
    (h : plan.Only (Action.IsUnder (op.credentials p) path)) :
    (onOwn p b i op).Ensures (Did i (Calling op path (Inside (op.credentials p) path))) plan
      fun _ => Did i (Calling op path (Inside (op.credentials p) path)) := by
  refine h.ensures Did.lasts ?_
  intro c action haction hc
  refine Did.one (p := p) (b := b)
    (Q := fun _ => Calling op path (Inside (op.credentials p) path)) ?_ c hc c rfl
  intro past w reply hpast
  have hstay : Inside (op.credentials p) path (calls past ++ []) := by
    rw [List.append_nil]
    exact hpast.calls
  cases action with
  | read path' cursor params =>
    obtain rfl : path' = path := haction
    exact ⟨⟨hpast.uses, hpast.calls.session⟩, hpast.cons rfl hpast.calls.ask⟩
  | update path' payload headers =>
    obtain rfl : path' = path := haction
    exact ⟨⟨hpast.uses, hpast.calls.session⟩, hpast.cons rfl hpast.calls.ask⟩
  | dispatch d => exact ⟨haction, hpast.cons rfl hstay⟩
  | record who id => exact ⟨haction, hpast.cons rfl hstay⟩
  | count | cursor | seen | suspend => exact ⟨trivial, hpast.cons rfl hstay⟩
  | _ => exact haction.elim

/-- An operation whose session is refused has made its only call. -/
theorem openSession_did {path : PathId} {consumer user : Credentials}
    (hpair : (op.credentials p).pair = some (consumer, user))
    (hm : (op.credentials p).mismatched = false) :
    (onOwn p b i op).Ensures (Did i (Calling op path (· = [])))
      (Plan.one (.openSession path consumer user)) fun reply : Except SessionFailure Unit =>
        match reply with
        | .error _ => Did i (Settled p op)
        | .ok () => Did i (Calling op path (Inside (op.credentials p) path)) := by
  refine (Did.one (Q := fun reply : Except SessionFailure Unit => match reply with
    | .error _ => Settled p op
    | .ok () => Calling op path (Inside (op.credentials p) path)) ?_).mono (fun _ hc => hc) ?_
  · intro past w reply hpast
    refine ⟨⟨hpast.uses, hpair⟩, ?_⟩
    have hcalls := hpast.calls
    match reply with
    | .error e =>
      have hrefused : Calling op path (Bracketed (op.credentials p) path)
          (⟨i, op, w, .openSession path consumer user, .error e⟩ :: past) := by
        refine hpast.cons rfl (.inl ⟨consumer, user, hpair, ?_⟩)
        rw [hcalls]
        rfl
      exact hrefused.settled hm
    | .ok () =>
      refine hpast.cons rfl ⟨[], ?_, by simp⟩
      rw [hcalls, opening, hpair]
      rfl
  · intro reply c hc
    match reply with
    | .error _ => exact hc
    | .ok () => exact hc

theorem closeSession_did {path : PathId} (hpair : (op.credentials p).pair.isSome = true)
    (hm : (op.credentials p).mismatched = false) :
    (onOwn p b i op).Ensures (Did i (Calling op path (Inside (op.credentials p) path)))
      (Plan.one (.closeSession path)) fun _ => Did i (Settled p op) := by
  refine Did.one ?_
  intro past w _ hpast
  refine ⟨⟨hpast.uses, ?_⟩, ?_⟩
  · rw [hpast.calls.session]
    exact hpair
  · have hclosed : Calling op path (Bracketed (op.credentials p) path)
        (⟨i, op, w, .closeSession path, ()⟩ :: past) := by
      refine hpast.cons rfl ?_
      have hclose := hpast.calls.close
      rwa [closing, if_pos hpair] at hclose
    exact hclosed.settled hm

/-- With a session around it, an operation has bracketed its calls in the end. -/
theorem withSession_settled {path : PathId} {plan : Plan (Except Failure α)}
    (hm : (op.credentials p).mismatched = false)
    (h : plan.Only (Action.IsUnder (op.credentials p) path)) :
    (onOwn p b i op).Ensures (Did i (Calling op path (· = [])))
      (Poller.withSession path (op.credentials p) plan) fun _ => Did i (Settled p op) := by
  have hinside : (onOwn p b i op).Ensures
      (Did i (Calling op path (Inside (op.credentials p) path))) plan
      fun _ => Did i (Calling op path (Inside (op.credentials p) path)) := inside_only h
  unfold Poller.withSession
  split
  · rename_i hpair
    refine hinside.mono ?_ ?_
    · intro c hc
      exact ⟨hc.uses, hc.awake, [], by rw [hc.calls, opening, hpair]; rfl, by simp⟩
    · intro _ c hc
      refine Calling.settled ⟨hc.uses, hc.awake, ?_⟩ hm
      have hclose := hc.calls.close
      rwa [closing, hpair, Option.isSome_none, if_neg Bool.false_ne_true, List.append_nil] at hclose
  · rename_i consumer user hpair
    have hsome : (op.credentials p).pair.isSome = true := by rw [hpair]; rfl
    refine .bind (openSession_did hpair hm) ?_
    intro reply
    match reply with
    | .error e => exact .pure fun _ hc => hc
    | .ok () =>
      refine hinside.bind fun result => (closeSession_did hsome hm).bind fun _ => ?_
      exact .pure fun _ hc => hc

/-! ## Whole operations -/

/-- Looking up the state of polling: if it is suspended, the operation is given up. -/
theorem state_did {path : PathId} :
    (onOwn p b i op).Ensures (Did i (Calling op path (· = []))) (Plan.one .state)
      fun s : PollState => match s with
        | .suspended => Did i (Settled p op)
        | .running => Did i (Calling op path (· = [])) := by
  refine (Did.one (Q := fun s : PollState => match s with
    | .suspended => Settled p op
    | .running => Calling op path (· = [])) ?_).mono (fun _ hc => hc) ?_
  · intro past w s hpast
    refine ⟨trivial, ?_⟩
    have hcalls : FeedPoller.calls past ++ [] = [] := by rw [hpast.calls, List.append_nil]
    match s with
    | .suspended =>
      refine .of_forgoes (.inr (.inl ⟨_, List.mem_cons_self .., rfl⟩)) ?_
      rw [calls_cons]
      exact hcalls
    | .running => exact hpast.cons rfl hcalls
  · intro s c hc
    cases s <;> exact hc

/-- An action that neither calls a path nor finds polling suspended. -/
theorem aside_did {path : PathId} {sofar : List Call → Prop} {action : Action}
    (h : ∀ past w reply, Conduct p op past ⟨i, op, w, action, reply⟩ ∧
      (⟨i, op, w, action, reply⟩ : Entry σ).foundSuspended = false ∧
      (⟨i, op, w, action, reply⟩ : Entry σ).call = none) :
    (onOwn p b i op).Ensures (Did i (Calling op path sofar)) (Plan.one action)
      fun _ => Did i (Calling op path sofar) := by
  refine Did.one ?_
  intro past w reply hpast
  obtain ⟨hconduct, hawake, hcall⟩ := h past w reply
  refine ⟨hconduct, hpast.cons hawake ?_⟩
  rw [hcall, Option.toList_none, List.append_nil]
  exact hpast.calls

theorem runCycle_settled (hop : op.IsScheduled) :
    (onOwn p b i op).Ensures (Did i (Calling op backgroundPath (· = []))) p.runCycle
      fun _ => Did i (Settled p op) := by
  have hcreds := hop.credentials p
  refine .bind state_did ?_
  intro s
  match s with
  | .suspended => exact .pure fun _ hc => hc
  | .running =>
    refine .bind (aside_did fun _ _ _ => ⟨trivial, rfl, rfl⟩) fun _ => ?_
    split
    · rename_i hm
      refine .pure ?_
      intro c hc
      exact .of_forgoes (.inl (hcreds ▸ hm)) hc.calls
    · rename_i hm
      refine .bind (aside_did fun _ _ _ => ⟨trivial, rfl, rfl⟩) fun cursor => ?_
      have hplan : (p.poll backgroundPath p.background.identity cursor p.settings.query
          p.background).Only (Action.IsUnder (op.credentials p) backgroundPath) :=
        hcreds ▸ Poller.poll_only cursor p.settings.query
      rw [← hcreds] at hm ⊢
      exact withSession_settled (by simpa using hm) (hcreds ▸ hplan)

theorem handle_settled (c : Command) :
    (onOwn p b i (.command c)).Ensures (Did i (· = [])) (p.handle c)
      fun _ => Did i (Settled p (.command c)) := by
  unfold Poller.handle
  dsimp only
  split
  · rename_i hm
    refine .pure ?_
    intro ch hch
    exact .of_forgoes (.inl hm) (by rw [hch]; rfl)
  · rename_i hm
    refine .bind (Did.one (Q := fun r : Except Failure PathId => match r with
      | .error _ => Settled p (.command c)
      | .ok path => Calling (.command c) path (· = [])) ?_) ?_
    · intro past w r hpast
      subst hpast
      refine ⟨⟨id, rfl⟩, ?_⟩
      match r with
      | .error e =>
        refine .of_forgoes (.inr (.inr ?_)) rfl
        rintro path ⟨e', he', hmade⟩
        rw [List.mem_singleton.mp he'] at hmade
        cases hmade
      | .ok path =>
        refine ⟨⟨_, List.mem_singleton_self _, rfl⟩, ?_, rfl⟩
        intro e he
        rw [List.mem_singleton.mp he]
        rfl
    · intro r
      match r with
      | .error _ => exact .pure fun _ hc => hc
      | .ok path =>
        refine withSession_settled (eq_false_of_ne_true hm) ?_
        refine .bind (Poller.commandPoll_only c) ?_
        intro r
        match r with
        | .error _ => exact .pure _
        | .ok _ =>
          refine .bind (Poller.commandUpdate_only c) ?_
          intro r
          match r with
          | .error _ => exact .pure _
          | .ok _ => exact .pure _

theorem Calling.start (hop : op.IsScheduled) :
    Calling op backgroundPath (· = []) ([] : List (Entry σ)) :=
  ⟨hop.uses_iff.mpr rfl, by simp, rfl⟩

theorem plan_settled :
    (onOwn p b i op).Ensures (Did i (· = [])) (op.plan p) fun _ => Did i (Settled p op) := by
  intro ch hstart
  have hown : ch.own i = [] := hstart
  cases op with
  | cycle =>
    have hscheduled : Operation.cycle.IsScheduled := trivial
    have hcycle : Did i (Calling .cycle backgroundPath (· = [])) ch := by
      rw [Did, hown]
      exact .start hscheduled
    refine Terms.Ensures.bind (runCycle_settled hscheduled) ?_ ch hcycle
    intro r
    exact .pure fun _ hc => hc
  | tick =>
    have hscheduled : Operation.tick.IsScheduled := trivial
    have htick : Did i (Calling .tick backgroundPath (· = [])) ch := by
      rw [Did, hown]
      exact .start hscheduled
    refine Terms.Ensures.bind (R := fun _ => Did i (Settled p .tick)) (.bind state_did ?_) ?_ ch htick
    · intro s
      match s with
      | .suspended => exact .pure fun _ hc => hc
      | .running =>
        exact .bind (runCycle_settled hscheduled) fun _ => .pure fun _ hc => hc
    · intro r
      cases r <;> exact .pure fun _ hc => hc
  | command c =>
    refine Terms.Ensures.bind (handle_settled c) ?_ ch hown
    intro r
    exact .pure fun _ hc => hc

/-! ## In every course -/

/-- All that was done was well conducted. -/
def WellConducted (p : Poller) (c : Chronicle σ) : Prop :=
  EachGiven (fun past e => Conduct p e.op (past.filter (·.task = e.task)) e) c.log

theorem WellConducted.of_mem {c : Chronicle σ} (h : WellConducted p c) {e : Entry σ}
    (he : e ∈ c.log) : ∃ past, past ⊆ c.log ∧ Conduct p e.op past e := by
  obtain ⟨past, hsuffix, hconduct⟩ := EachGiven.of_mem h he
  exact ⟨_, fun e' he' => hsuffix.subset (List.mem_filter.mp he').1, hconduct⟩

/-- Operations side by side, each of which does nothing but what is such given its own past. -/
theorem beside_onOwnPast (R : Rules p b) {Post : Operation → List (Entry σ) → Prop}
    (hplan : ∀ i op, (onOwnPast p b C i op).Ensures (Did i (· = [])) (op.plan p)
      fun _ => Did i (Post op)) :
    Beside R (fun i _ c c' => c'.own i = c.own i)
      (fun i op c c' => ∃ e, c'.log = e :: c.log ∧ e.task = i ∧ e.op = op ∧ C op (c.own i) e)
      (fun i op _ => Did i (Post op))
      (fun c => EachGiven (fun past e => C e.op (past.filter (·.task = e.task)) e) c.log) where
  refl _ _ _ _ := rfl
  trans _ _ _ _ _ h h' := h'.trans h
  lasts i op _ c c' h hrely := by
    rw [Did, hrely]
    exact h
  kept i op c c' h := by
    rintro ⟨e, hlog, rfl, rfl, he⟩
    rw [hlog]
    exact ⟨he, h⟩
  others i j op op' c c' hij _ := by
    rintro ⟨e, hlog, rfl, -, -⟩
    rw [Chronicle.own, hlog]
    exact Chronicle.own_cons_of_ne (w := c'.world) hij
  worldK _ _ h _ := h
  world _ _ _ _ _ _ := rfl
  begin c op _ hn _ := hplan _ op c.toChronicle hn.own_next

/-- What plans make sure of for every operation by itself, they make sure of in every course. -/
theorem Rules.Later.ownPast {R : Rules p b} {w : World σ} {c : Course σ}
    (hl : R.Later { world := w } c) {Post : Operation → List (Entry σ) → Prop}
    (hplan : ∀ i op, (onOwnPast p b C i op).Ensures (Did i (· = [])) (op.plan p)
      fun _ => Did i (Post op)) :
    EachGiven (fun past e => C e.op (past.filter (·.task = e.task)) e) c.log ∧ c.Numbered ∧
      ∀ i t, c.tasks[i]? = some t → t.Done → Post t.op (c.own i) := by
  have hgood := (beside_onOwnPast R hplan).holds hl trivial
  refine ⟨hgood.always, hgood.numbered, ?_⟩
  rintro i ⟨op, plan⟩ ht ⟨outcome, rfl⟩
  exact hgood.underway i _ ht

/-- Every operation conducts itself well, and one that is done has settled its calls. -/
theorem conduct_of_later {R : Rules p b} {w : World σ} {c : Course σ}
    (hl : R.Later { world := w } c) :
    WellConducted p c.toChronicle ∧ c.Numbered ∧
      ∀ i t, c.tasks[i]? = some t → t.Done → Settled p t.op (c.own i) :=
  hl.ownPast fun _ _ => plan_settled

end FeedPoller
