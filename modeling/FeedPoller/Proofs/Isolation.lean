import FeedPoller.Backend.StatusFeed
import FeedPoller.Proofs.Conduct

/-! Credentials kept apart over a status feed. Commands may go on side by side and beside a cycle; each
has a path of its own, and what a path sends is told by the calls that its operation made there. Main
statement: every request bears the authorization of the operation that it is sent for, and nothing is
left of a session when its operation is done. -/

namespace FeedPoller

/-- What is sent to prove who asks: something only if both halves are there. -/
def CredentialSet.authorization (creds : CredentialSet) : Option String :=
  creds.pair.map fun (consumer, user) =>
    "OAuth oauth_consumer_key=\"" ++ consumer.token ++ "\", oauth_token=\"" ++ user.token ++ "\""

/-! ## What a feed sends -/

namespace StatusFeed

/-- The request that an action sends, and the path on which it is sent. -/
def sent (e : Entry StatusFeed) : Option (PathId × Http.Request) :=
  match e.action with
  | .read path cursor params =>
    ((e.world.backend.path path).readRequest cursor params).map (path, ·)
  | .update path payload headers =>
    ((e.world.backend.path path).updateRequest payload headers).toOption.map (path, ·)
  | _ => none

/-- While an action is done, its request is what the transport carries, and nothing else. -/
def Carried (p : Poller) (e : Entry StatusFeed) : Prop :=
  (e.world.perform p backend e.action).2.backend.transport =
    match sent e with
    | some (_, r) => (e.world.backend.transport.send r).2
    | none => e.world.backend.transport

theorem carried_perform (p : Poller) (e : Entry StatusFeed) : Carried p e := by
  obtain ⟨i, op, w, action, reply⟩ := e
  unfold Carried
  cases action with
  | read path cursor params =>
    show ((w.backend.path path).read w.backend.moment cursor params w.backend.transport).2.2 = _
    simp only [Feed.Path.transport_read, sent]
    cases (w.backend.path path).readRequest cursor params <;> simp
  | update path payload headers =>
    show ((w.backend.path path).update payload headers w.backend.transport).2 = _
    simp only [Feed.Path.transport_update, sent]
    cases ((w.backend.path path).updateRequest payload headers).toOption <;> simp
  | openSession path consumer user =>
    simp only [World.perform, backend, openSession, sent]
    split <;> rfl
  | _ => rfl

/-- A request bears the authorization of the session that is active on its path. -/
theorem authorization_of_sent {e : Entry StatusFeed} {path : PathId} {r : Http.Request}
    (h : sent e = some (path, r)) : r.authorization = e.world.backend.session path := by
  unfold sent at h
  split at h
  · obtain ⟨r', hr, hpair⟩ := Option.map_eq_some_iff.mp h
    obtain ⟨rfl, rfl⟩ := Prod.mk.inj hpair
    exact Feed.Path.authorization_of_readRequest hr
  · rename_i path' payload headers _
    obtain ⟨r', hr, hpair⟩ := Option.map_eq_some_iff.mp h
    obtain ⟨rfl, rfl⟩ := Prod.mk.inj hpair
    cases hrequest : (e.world.backend.path path').updateRequest payload headers with
    | error _ => simp [hrequest, Except.toOption] at hr
    | ok r =>
      rw [hrequest] at hr
      cases hr
      exact Feed.Path.authorization_of_updateRequest hrequest
  · cases h

/-! ## Sessions of a feed -/

/-- What a session of these credentials sends. -/
def authorized (session : Option (Credentials × Credentials)) : Option String :=
  session.map fun pair => Feed.Path.authorizationOf pair.1 pair.2

theorem session_of_openSession {q q' : Feed.Path} {consumer user : Credentials}
    (h : q.openSession consumer user = .ok q') : q'.session = authorized (some (consumer, user)) := by
  obtain ⟨-, -, rfl⟩ := Feed.Path.openSession_eq_ok_iff.mp h
  rfl

theorem made_perform {p : Poller} {i : Nat} {op : Operation} {w : World StatusFeed} {action : Action}
    {path : PathId}
    (h : (⟨i, op, w, action, (w.perform p backend action).1.value⟩ : Entry StatusFeed).made =
      some path) : path = w.backend.paths.size := by
  cases action with
  | create => exact (Option.some.inj h).symm
  | _ => cases h

theorem size_perform (p : Poller) (w : World StatusFeed) {action : Action} (h : action ≠ .create) :
    (w.perform p backend action).2.backend.paths.size = w.backend.paths.size := by
  cases action with
  | create => exact absurd rfl h
  | openSession => exact size_openSession ..
  | closeSession | read => exact size_setPath ..
  | _ => rfl

/-- Unless a path is made, the session of a path after an action can be told from the call that it
was. -/
theorem session_perform (p : Poller) (i : Nat) (op : Operation) (w : World StatusFeed)
    {action : Action} (haction : action ≠ .create) {path : PathId}
    (hpath : path < w.backend.paths.size) {before : Option (Credentials × Credentials)}
    (h : w.backend.session path = authorized before) :
    (w.perform p backend action).2.backend.session path =
      authorized ((⟨i, op, w, action, (w.perform p backend action).1.value⟩ :
        Entry StatusFeed).call.elim before (Call.session path before)) := by
  cases action with
  | create => exact absurd rfl haction
  | openSession path' consumer user =>
    cases hopen : (w.backend.path path').openSession consumer user with
    | error e =>
      simp only [World.perform, backend, openSession, hopen, Entry.call, Option.elim_some, Call.session]
      rw [if_neg (by simp [Except.isOk, Except.toBool])]
      exact h
    | ok q =>
      simp only [World.perform, backend, openSession, hopen, Entry.call, Option.elim_some, Call.session]
      rw [session_setPath]
      by_cases heq : path' = path
      · subst heq
        rw [if_pos ⟨rfl, hpath⟩, if_pos ⟨rfl, rfl⟩, session_of_openSession hopen]
      · rw [if_neg fun hand => heq hand.1.symm, if_neg fun hand => heq hand.1, h]
  | closeSession path' =>
    simp only [World.perform, backend, closeSession, Entry.call, Option.elim_some, Call.session]
    rw [session_setPath]
    by_cases heq : path' = path
    · subst heq
      rw [if_pos ⟨rfl, hpath⟩, if_pos rfl]
      rfl
    · rw [if_neg fun hand => heq hand.1.symm, if_neg heq, h]
  | read => exact (session_read ..).trans h
  | update => exact h
  | _ => exact h

/-! ## Paths of a feed -/

/-- Each path made is a new one, and what it sends is told by the calls made there. -/
structure Mapped (c : Chronicle StatusFeed) : Prop where
  background : backgroundPath < c.world.backend.paths.size
  made : ∀ e ∈ c.log, ∀ path, e.made = some path →
    backgroundPath < path ∧ path < c.world.backend.paths.size
  sessions : ∀ path < c.world.backend.paths.size,
    c.world.backend.session path = authorized (sessionOf path (calls c.log))

namespace Mapped

variable {p : Poller} {c : Chronicle StatusFeed}

/-- Whatever path an operation uses has been made. -/
theorem lt_of_uses (h : Mapped c) {op : Operation} {past : List (Entry StatusFeed)}
    (hpast : past ⊆ c.log) {path : PathId} (huses : op.Uses past path) :
    path < c.world.backend.paths.size := by
  cases op with
  | cycle | tick =>
    obtain rfl : path = backgroundPath := huses
    exact h.background
  | command =>
    obtain ⟨e, he, hmade⟩ := huses
    exact (h.made e (hpast he) path hmade).2

/-- Commands leave the background path alone. -/
theorem isScheduled_of_uses (h : Mapped c) {op : Operation} {past : List (Entry StatusFeed)}
    (hpast : past ⊆ c.log) (huses : op.Uses past backgroundPath) : op.IsScheduled := by
  cases op with
  | cycle | tick => trivial
  | command =>
    obtain ⟨e, he, hmade⟩ := huses
    exact absurd (h.made e (hpast he) _ hmade).1 (Nat.lt_irrefl _)

/-- No call was made on a path that is still to be made. -/
theorem sessionOf_new (h : Mapped c) (hwell : WellConducted p c) {log : List (Entry StatusFeed)}
    (hlog : log ⊆ c.log) : sessionOf c.world.backend.paths.size (calls log) = none := by
  refine sessionOf_of_forall_ne ?_
  intro call hcall
  obtain ⟨e, he, hcall⟩ := List.mem_filterMap.mp (List.mem_reverse.mp hcall)
  obtain ⟨past, hpast, hconduct⟩ := hwell.of_mem (hlog he)
  exact Nat.ne_of_lt (h.lt_of_uses hpast (hconduct.uses hcall))

theorem create (h : Mapped c) (hwell : WellConducted p c) (i : Nat) (op : Operation) :
    Mapped (c.perform p backend i op .create).2 := by
  have hsize : (c.perform p backend i op .create).2.world.backend.paths.size =
      c.world.backend.paths.size + 1 := size_create _
  refine { background := ?_, made := ?_, sessions := ?_ }
  · rw [hsize]
    exact Nat.lt_succ_of_lt h.background
  · intro e he path hmade
    rw [hsize]
    rcases List.mem_cons.mp he with rfl | he
    · obtain rfl : c.world.backend.paths.size = path := Option.some.inj hmade
      exact ⟨h.background, Nat.lt_succ_self _⟩
    · obtain ⟨hlow, hhigh⟩ := h.made e he path hmade
      exact ⟨hlow, Nat.lt_succ_of_lt hhigh⟩
  · intro path hpath
    rw [hsize] at hpath
    refine (session_create c.world.backend path).trans ?_
    split
    · rename_i hold
      exact h.sessions path hold
    · rename_i hnot
      obtain rfl : path = c.world.backend.paths.size :=
        Nat.le_antisymm (Nat.lt_succ_iff.mp hpath) (Nat.le_of_not_lt hnot)
      have hnew := h.sessionOf_new hwell (List.Subset.refl c.log)
      exact (congrArg authorized hnew).symm

theorem perform_of_ne_create (h : Mapped c) (i : Nat) (op : Operation) {action : Action}
    (haction : action ≠ .create) : Mapped (c.perform p backend i op action).2 := by
  have hsize : (c.perform p backend i op action).2.world.backend.paths.size =
      c.world.backend.paths.size := size_perform p c.world haction
  refine { background := hsize ▸ h.background, made := ?_, sessions := ?_ }
  · intro e he path hmade
    rw [hsize]
    rcases List.mem_cons.mp he with rfl | he
    · rw [Entry.made_of_ne haction] at hmade
      cases hmade
    · exact h.made e he path hmade
  · intro path hpath
    have hold : path < c.world.backend.paths.size := hsize ▸ hpath
    refine (session_perform p i op c.world haction hold (h.sessions path hold)).trans ?_
    rw [Chronicle.perform, sessionOf_calls_cons]

theorem perform (h : Mapped c) (hwell : WellConducted p c) (i : Nat) (op : Operation)
    (action : Action) : Mapped (c.perform p backend i op action).2 := by
  by_cases haction : action = .create
  · subst haction
    exact h.create hwell i op
  · exact h.perform_of_ne_create i op haction

end Mapped
end StatusFeed

/-! ## Operations apart -/

/-- Commands begin at any time, and cycles one at a time. The clock and whatever carries the requests
may change by themselves, but nobody else uses the paths. -/
def apart (p : Poller) : Rules p StatusFeed.backend where
  moves f f' := f'.paths = f.paths
  begins c op := op.IsScheduled → ∀ t ∈ c.tasks, t.op.IsScheduled → t.Done

/-- A command holds the path that it has made for good, and a cycle the background path until it is
done. -/
structure Course.Holds {σ : Type} (c : Course σ) (path : PathId) (i : Nat) (t : Task) : Prop where
  task : c.tasks[i]? = some t
  uses : t.op.Uses (c.own i) path
  undone : t.op.IsScheduled → ¬ t.Done

open StatusFeed

/-- One operation at a time holds a path, the calls there are its calls, and its requests bear its
authorization. A path that none holds has no session. -/
structure Separate (p : Poller) (c : Course StatusFeed) : Prop where
  mapped : Mapped c.toChronicle
  sole : ∀ path i j t t', c.Holds path i t → c.Holds path j t' → i = j
  held : ∀ path i t, c.Holds path i t →
    sessionOf path (calls c.log) = sessionOf path (calls (c.own i))
  free : ∀ path, (∀ i t, ¬ c.Holds path i t) → sessionOf path (calls c.log) = none
  requests : ∀ e ∈ c.log, ∀ path r, sent e = some (path, r) →
    r.authorization = (e.op.credentials p).authorization

/-- Requests are sent inside the session of their operation. -/
theorem Conduct.sends {p : Poller} {op : Operation} {past : List (Entry StatusFeed)}
    {e : Entry StatusFeed} (h : Conduct p op past e) {path : PathId} {r : Http.Request}
    (hsent : sent e = some (path, r)) :
    op.Uses past path ∧ sessionOf path (calls past) = (op.credentials p).pair := by
  obtain ⟨i, op', w, action, reply⟩ := e
  cases action with
  | read path' | update path' =>
    obtain ⟨r', -, hpair⟩ := Option.map_eq_some_iff.mp hsent
    obtain ⟨rfl, -⟩ := Prod.mk.inj hpair
    exact h
  | _ => cases hsent

namespace Separate

variable {p : Poller} {c : Course StatusFeed} {path : PathId}

theorem meanwhile {w : World StatusFeed} (h : Separate p c)
    (hw : Meanwhile (apart p).moves c.world w) : Separate p { c with world := w } := by
  have hpaths : w.backend.paths = c.world.backend.paths := by
    obtain ⟨-, -, hs | hs⟩ := hw.apart
    · rw [hs]
    · exact hs
  have hmapped : Mapped { c.toChronicle with world := w } := by
    refine ⟨?_, ?_, ?_⟩
    · rw [hpaths]
      exact h.mapped.background
    · rw [hpaths]
      exact h.mapped.made
    · intro path hpath
      rw [hpaths] at hpath
      rw [session_of_paths hpaths]
      exact h.mapped.sessions path hpath
  have hsame : ∀ {path i t}, ({ c with world := w } : Course StatusFeed).Holds path i t ↔
      c.Holds path i t :=
    ⟨fun hholds => ⟨hholds.task, hholds.uses, hholds.undone⟩,
      fun hholds => ⟨hholds.task, hholds.uses, hholds.undone⟩⟩
  refine { mapped := hmapped, requests := h.requests, sole := ?_, held := ?_, free := ?_ }
  · intro path i j t t' hi hj
    exact h.sole path i j t t' (hsame.mp hi) (hsame.mp hj)
  · intro path i t hholds
    exact h.held path i t (hsame.mp hholds)
  · intro path hnone
    exact h.free path fun i t hholds => hnone i t (hsame.mpr hholds)

/-! A cycle that begins holds the background path, which none held before it. -/

theorem not_holds_background (h : Separate p c)
    (hdone : ∀ t ∈ c.tasks, t.op.IsScheduled → t.Done) (i : Nat) (t : Task) :
    ¬ c.Holds backgroundPath i t := by
  intro hholds
  have hscheduled := h.mapped.isScheduled_of_uses (c.own_subset i) hholds.uses
  exact hholds.undone hscheduled (hdone t (List.mem_of_getElem? hholds.task) hscheduled)

theorem begin {op : Operation} (h : Separate p c) (hn : c.Numbered) (hop : (apart p).begins c op) :
    Separate p (c.begin p op) := by
  have hfrom : ∀ {path i t}, (c.begin p op).Holds path i t → c.Holds path i t ∨
      i = c.tasks.length ∧ path = backgroundPath ∧ op.IsScheduled := by
    intro path i t hholds
    obtain htask | ⟨rfl, rfl⟩ := Course.task_begin hholds.task
    · exact .inl ⟨htask, hholds.uses, hholds.undone⟩
    · have huses : op.Uses (c.own c.tasks.length) path := hholds.uses
      rw [hn.own_next] at huses
      obtain ⟨hscheduled, rfl⟩ := huses.of_nil
      exact .inr ⟨rfl, rfl, hscheduled⟩
  refine { mapped := h.mapped, requests := h.requests, sole := ?_, held := ?_, free := ?_ }
  · intro path i j t t' hi hj
    obtain hi | ⟨rfl, rfl, hscheduled⟩ := hfrom hi
    · obtain hj | ⟨rfl, rfl, hscheduled⟩ := hfrom hj
      · exact h.sole path i j t t' hi hj
      · exact absurd hi (h.not_holds_background (hop hscheduled) i t)
    · obtain hj | ⟨rfl, -, -⟩ := hfrom hj
      · exact absurd hj (h.not_holds_background (hop hscheduled) j t')
      · rfl
  · intro path i t hholds
    obtain hholds | ⟨rfl, rfl, hscheduled⟩ := hfrom hholds
    · exact h.held path i t hholds
    · have hnone := h.free backgroundPath (h.not_holds_background (hop hscheduled))
      change _ = sessionOf backgroundPath (calls (c.own c.tasks.length))
      rw [hn.own_next]
      exact hnone
  · intro path hnone
    refine h.free path ?_
    intro i t hholds
    have hlt := (List.getElem?_eq_some_iff.mp hholds.task).1
    exact hnone i t ⟨(List.getElem?_append_left hlt).trans hholds.task, hholds.uses, hholds.undone⟩

section Act

variable {i : Nat} {op : Operation} {action : Action} {next : action.Reply → Plan Outcome}

/-- The course after an operation has done its next action. -/
abbrev acted (p : Poller) (c : Course StatusFeed) (i : Nat) (op : Operation) (action : Action)
    (next : action.Reply → Plan Outcome) : Course StatusFeed where
  toChronicle := (c.perform p backend i op action).2
  tasks := c.tasks.set i ⟨op, next (c.perform p backend i op action).1⟩

theorem own_acted_self : (acted p c i op action next).own i =
    ⟨i, op, c.world, action, (c.perform p backend i op action).1⟩ :: c.own i :=
  Chronicle.own_cons_self ..

theorem own_acted_of_ne {j : Nat} (hj : j ≠ i) : (acted p c i op action next).own j = c.own j :=
  Chronicle.own_cons_of_ne (Ne.symm hj)

theorem holds_acted_of_ne {j : Nat} {t : Task} (hj : j ≠ i) :
    (acted p c i op action next).Holds path j t ↔ c.Holds path j t := by
  have htask : (acted p c i op action next).tasks[j]? = c.tasks[j]? := List.getElem?_set_ne (Ne.symm hj)
  refine ⟨?_, ?_⟩
  · intro hholds
    have huses := hholds.uses
    rw [own_acted_of_ne hj] at huses
    exact ⟨htask ▸ hholds.task, huses, hholds.undone⟩
  · intro hholds
    have huses := hholds.uses
    have hown : (acted p c i op action next).own j = c.own j := own_acted_of_ne hj
    rw [← hown] at huses
    exact ⟨htask.trans hholds.task, huses, hholds.undone⟩

theorem holds_of_uses (hi : c.tasks[i]? = some ⟨op, .act action next⟩)
    (huses : op.Uses (c.own i) path) : c.Holds path i ⟨op, .act action next⟩ := by
  refine ⟨hi, huses, ?_⟩
  rintro - ⟨outcome, houtcome⟩
  cases houtcome

variable (h : Separate p c) (hi : c.tasks[i]? = some ⟨op, .act action next⟩)
  (hwell : WellConducted p c.toChronicle)
  (hconduct : Conduct p op (c.own i) ⟨i, op, c.world, action, (c.perform p backend i op action).1⟩)

include h hi hwell in
/-- On the paths that it uses, the calls are those of the operation that has acted. -/
theorem sessionOf_acted_self (huses : op.Uses ((acted p c i op action next).own i) path) :
    sessionOf path (calls (acted p c i op action next).log) =
      sessionOf path (calls ((acted p c i op action next).own i)) := by
  have hbefore : sessionOf path (calls c.log) = sessionOf path (calls (c.own i)) := by
    rw [own_acted_self] at huses
    obtain hmade | hold := huses.of_cons
    · obtain rfl := made_perform hmade
      rw [h.mapped.sessionOf_new hwell (List.Subset.refl _),
        h.mapped.sessionOf_new hwell (c.own_subset i)]
    · exact h.held path i _ (holds_of_uses hi hold)
  rw [own_acted_self, sessionOf_calls_cons, ← hbefore]
  exact sessionOf_calls_cons ..

include h in
/-- Who holds a path that the operation uses by now is that operation. -/
theorem eq_of_holds_acted (hi : c.tasks[i]? = some ⟨op, .act action next⟩)
    (huses : op.Uses ((acted p c i op action next).own i) path) {j : Nat} {t : Task}
    (hj : (acted p c i op action next).Holds path j t) : j = i := by
  by_cases hne : j = i
  · exact hne
  have hjc := (holds_acted_of_ne hne).mp hj
  rw [own_acted_self] at huses
  obtain hmade | hold := huses.of_cons
  · have hlt := h.mapped.lt_of_uses (c.own_subset j) hjc.uses
    exact absurd (made_perform hmade ▸ hlt) (Nat.lt_irrefl _)
  · exact h.sole path j i t _ hjc (holds_of_uses hi hold)

theorem uses_of_holds_acted {t : Task} (hholds : (acted p c i op action next).Holds path i t) :
    op.Uses ((acted p c i op action next).own i) path := by
  obtain ⟨-, rfl⟩ | ⟨hne, -⟩ := Course.task_set hholds.task
  · exact hholds.uses
  · exact absurd rfl hne

include h hi in
theorem sole_acted {j j' : Nat} {t t' : Task} (hj : (acted p c i op action next).Holds path j t)
    (hj' : (acted p c i op action next).Holds path j' t') : j = j' := by
  by_cases hji : j = i
  · subst hji
    exact (h.eq_of_holds_acted hi (uses_of_holds_acted hj) hj').symm
  by_cases hji' : j' = i
  · subst hji'
    exact h.eq_of_holds_acted hi (uses_of_holds_acted hj') hj
  · exact h.sole path j j' t t' ((holds_acted_of_ne hji).mp hj) ((holds_acted_of_ne hji').mp hj')

include h hi hwell hconduct in
theorem held_acted {j : Nat} {t : Task} (hj : (acted p c i op action next).Holds path j t) :
    sessionOf path (calls (acted p c i op action next).log) =
      sessionOf path (calls ((acted p c i op action next).own j)) := by
  by_cases hji : j = i
  · subst hji
    exact h.sessionOf_acted_self hi hwell (uses_of_holds_acted hj)
  · have hjc := (holds_acted_of_ne hji).mp hj
    have hnot : ¬ op.Uses (c.own i) path :=
      fun huses => hji (h.sole path j i t _ hjc (holds_of_uses hi huses))
    rw [own_acted_of_ne hji, ← h.held path j t hjc]
    exact hconduct.sessionOf_of_not_uses hnot c.log

include h hi hwell hconduct in
/-- A path that the operation uses and no longer holds is that of a cycle just done. -/
theorem free_acted (hsettled : ∀ outcome, next (c.perform p backend i op action).1 = .done outcome →
      Settled p op ((acted p c i op action next).own i))
    (hnone : ∀ j t, ¬ (acted p c i op action next).Holds path j t) :
    sessionOf path (calls (acted p c i op action next).log) = none := by
  by_cases huses : op.Uses ((acted p c i op action next).own i) path
  · have hlt := (List.getElem?_eq_some_iff.mp hi).1
    obtain ⟨outcome, houtcome⟩ : ∃ outcome, next (c.perform p backend i op action).1 = .done outcome :=
      Classical.byContradiction fun hnot =>
        hnone i _ ⟨List.getElem?_set_self hlt, huses, fun _ => hnot⟩
    rw [h.sessionOf_acted_self hi hwell huses]
    exact (hsettled outcome houtcome).session path
  · have hnot : ¬ op.Uses (c.own i) path := by
      intro hold
      rw [own_acted_self] at huses
      exact huses (hold.mono (List.subset_cons_self ..))
    refine (hconduct.sessionOf_of_not_uses hnot c.log).trans (h.free path ?_)
    intro j t hj
    by_cases hji : j = i
    · subst hji
      obtain rfl := Option.some.inj (hi.symm.trans hj.task)
      exact hnot hj.uses
    · exact hnone j t ((holds_acted_of_ne hji).mpr hj)

include h hi hconduct in
/-- What the operation sends now bears its authorization. -/
theorem authorization_of_act {r : Http.Request}
    (hsent : sent ⟨i, op, c.world, action, (c.perform p backend i op action).1⟩ = some (path, r)) :
    r.authorization = (op.credentials p).authorization := by
  obtain ⟨huses, hpair⟩ := hconduct.sends hsent
  have hlt := h.mapped.lt_of_uses (c.own_subset i) huses
  have hheld := h.held path i _ (holds_of_uses hi huses)
  rw [authorization_of_sent hsent]
  change c.world.backend.session path = _
  rw [h.mapped.sessions path hlt, hheld, hpair]
  rfl

include h hi hwell hconduct in
theorem act (hsettled : ∀ outcome, next (c.perform p backend i op action).1 = .done outcome →
      Settled p op ((acted p c i op action next).own i)) :
    Separate p (acted p c i op action next) := by
  refine { mapped := h.mapped.perform hwell i op action, sole := ?_, held := ?_, free := ?_,
           requests := ?_ }
  · intro path j j' t t' hj hj'
    exact h.sole_acted hi hj hj'
  · intro path j t hj
    exact h.held_acted hi hwell hconduct hj
  · intro path hnone
    exact h.free_acted hi hwell hconduct hsettled hnone
  · intro e he path r hsent
    rcases List.mem_cons.mp he with rfl | he
    · exact h.authorization_of_act hi hconduct hsent
    · exact h.requests e he path r hsent

end Act

theorem of_later {w : World StatusFeed} (hw : Separate p { world := w })
    (hl : (apart p).Later { world := w } c) : Separate p c := by
  induction hl with
  | refl => exact hw
  | @tail c c' hl hs ih =>
    obtain ⟨hwell, hn, -⟩ := conduct_of_later hl
    obtain ⟨hwell', -, hsettled⟩ := conduct_of_later (hl.tail hs)
    cases hs with
    | begin hop => exact ih.begin hn hop
    | @act i op action next hi =>
      refine ih.act hi hwell hwell'.1 ?_
      intro outcome houtcome
      have hlt := (List.getElem?_eq_some_iff.mp hi).1
      exact hsettled i _ (List.getElem?_set_self hlt) ⟨outcome, houtcome⟩
    | meanwhile hw => exact ih.meanwhile hw

/-- At the start there is the background path, without a session. -/
theorem start {sink : Sink} {s : StatusFeed} (hs : s.paths = #[]) {w : World StatusFeed}
    (hw : World.init p backend sink s = .ok w) : Separate p { world := w } := by
  have hbackend : w.backend = s.create.2 := World.backend_of_init hw
  have hsize : w.backend.paths.size = 1 := by
    rw [hbackend]
    simp [create, hs]
  have hmapped : Mapped { world := w } := by
    refine ⟨?_, by simp, ?_⟩
    · rw [hsize]
      exact Nat.one_pos
    · intro path _
      change w.backend.session path = none
      rw [hbackend, session_create, hs]
      rfl
  have hholds : ∀ path i t, ¬ ({ world := w } : Course StatusFeed).Holds path i t := by
    intro path i t hholds
    cases hholds.task
  refine { mapped := hmapped, free := fun _ _ => rfl, requests := by simp, sole := ?_, held := ?_ }
  · intro path i j t t' hi
    exact absurd hi (hholds path i t)
  · intro path i t hi
    exact absurd hi (hholds path i t)

end Separate

/-- What is kept apart: the requests that are carried, what is delivered and what is recorded. The session
that a cycle had is gone when it is done; after that there is one again only if another cycle is under
way. -/
structure Isolated (p : Poller) (c : Course StatusFeed) : Prop where
  carried : ∀ e ∈ c.log, Carried p e
  requests : ∀ e ∈ c.log, ∀ path r, sent e = some (path, r) →
    r.authorization = (e.op.credentials p).authorization ∧
      (path = backgroundPath → r.authorization = p.background.authorization)
  deliveries : ∀ e ∈ c.log, ∀ d, e.action = .dispatch d →
    d.consumer = (e.op.credentials p).consumer ∧ d.user = (e.op.credentials p).user
  records : ∀ e ∈ c.log, ∀ who id, e.action = .record who id →
    who = (e.op.credentials p).identity
  closed : ∀ i (t : Task) path, c.tasks[i]? = some t → t.Done → t.op.Uses (c.own i) path →
    (t.op.IsScheduled → ∀ t' ∈ c.tasks, t'.op.IsScheduled → t'.Done) →
    c.world.backend.session path = none

/-- Whatever commands go on beside each other and beside a cycle, each operation goes by its own
credentials in all that it sends, delivers and records, and leaves no session behind. -/
theorem isolated_of_reached {p : Poller} {rule : Sink.Rule} {s : StatusFeed} (hs : s.paths = #[])
    {c : Course StatusFeed} (h : (apart p).Reached rule s c) : Isolated p c := by
  obtain ⟨w, hw, hl⟩ := h
  have hseparate := Separate.of_later (.start hs hw) hl
  obtain ⟨hwell, -, hsettled⟩ := conduct_of_later hl
  refine { carried := fun e _ => carried_perform p e, requests := ?_, deliveries := ?_, records := ?_,
           closed := ?_ }
  · intro e he path r hsent
    refine ⟨hseparate.requests e he path r hsent, ?_⟩
    rintro rfl
    obtain ⟨past, hpast, hconduct⟩ := hwell.of_mem he
    obtain ⟨huses, -⟩ := hconduct.sends hsent
    have hscheduled := hseparate.mapped.isScheduled_of_uses hpast huses
    rw [hseparate.requests e he _ r hsent, hscheduled.credentials]
  · intro e he d hd
    obtain ⟨past, -, hconduct⟩ := hwell.of_mem he
    rwa [Conduct, hd] at hconduct
  · intro e he who id hrecord
    obtain ⟨past, -, hconduct⟩ := hwell.of_mem he
    rwa [Conduct, hrecord] at hconduct
  · intro i t path ht hdone huses hcycles
    have hlt := hseparate.mapped.lt_of_uses (c.own_subset i) huses
    have hnone : sessionOf path (calls c.log) = none := by
      by_cases hscheduled : t.op.IsScheduled
      · obtain rfl := hscheduled.uses_iff.mp huses
        exact hseparate.free _ (hseparate.not_holds_background (hcycles hscheduled))
      · have hholds : c.Holds path i t := ⟨ht, huses, fun hs => absurd hs hscheduled⟩
        rw [hseparate.held path i t hholds]
        exact (hsettled i t ht hdone).session path
    rw [hseparate.mapped.sessions path hlt, hnone]
    rfl

/-- Polls for the operator of an application. -/
def forOperator : Poller where
  settings := {}
  background := { consumer := some ⟨"app", "s"⟩, user := some ⟨"ops", "t"⟩ }

/-- A home timeline on which nothing is to be had. -/
def bareTimeline : StatusFeed where
  source := { kind := .home, baseUrl := "http://feed" }
  transport := .prepared { replies := [] }
  moment := ⟨0⟩

/-- A command for another user begins while a cycle has its session open, and reads before it. -/
def sideBySide : Course StatusFeed :=
  [0, 0, 0, 0, 1, 1, 1, 1, 0, 0, 1, 0, 1].foldl (Course.act forOperator backend)
    ((({ world := {
      backend := bareTimeline.create.2, history := .new 200 false } } : Course StatusFeed).begin
      forOperator .cycle).begin forOperator
        (.command { poll := some true, user := some ⟨"ann", "u"⟩ }))

theorem sideBySide_isolated :
    (apart forOperator).Reached .acceptAll bareTimeline sideBySide ∧
      sideBySide.log.filterMap (fun e => (sent e).map fun r => (r.1, r.2.authorization)) =
        [(0, some "OAuth oauth_consumer_key=\"app\", oauth_token=\"ops\""),
          (1, some "OAuth oauth_consumer_key=\"app\", oauth_token=\"ann\"")] ∧
      sideBySide.Idle ∧ Isolated forOperator sideBySide := by
  have h : (apart forOperator).Reached .acceptAll bareTimeline sideBySide := by
    refine ⟨_, rfl, Rules.Later.turns (Rules.Later.begin (Rules.Later.begin .refl ?_) ?_) _⟩
    · simp [apart]
    · exact fun hscheduled => hscheduled.elim
  exact ⟨h, by decide, by decide, isolated_of_reached rfl h⟩

end FeedPoller
