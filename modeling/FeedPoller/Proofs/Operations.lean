import FeedPoller.Proofs.Terms

/-! What the operations of a poller ensure, on any terms. Each rule takes an operation apart into the
actions that matter (the cursor, the read, each check, delivery and record) and asks for an assertion
between them; the actions aside are passed over by calm assertions. -/

namespace FeedPoller.Poller

variable {σ α : Type} {p : Poller} {b : Backend σ} {T : Terms p b}

open Terms

theorem deliver_ensures {who : Identity} {creds : CredentialSet} {item : Item} {P D : Assertion σ}
    {Q : Except Failure Unit → Assertion σ}
    (hdispatch : T.Ensures P (Plan.one (.dispatch (.of item creds))) fun r : Except String Unit =>
      match r with
      | .error reason => Q (.error (.dispatch reason))
      | .ok () => D)
    (hrecord : T.Ensures D (Plan.one (.record who item.id)) fun _ => Q (.ok ())) :
    T.Ensures P (deliver who creds item) Q := by
  refine .bind hdispatch fun r => ?_
  match r with
  | .error reason => exact .pure fun _ hc => hc
  | .ok () => exact .bind hrecord fun _ => .pure fun _ hc => hc

/-- Items are offered one at a time: each is left out, or delivered. -/
theorem offer_ensures {who : Identity} {creds : CredentialSet}
    {R : List Item → CycleReport → Assertion σ} {O : Item → List Item → CycleReport → Assertion σ}
    {Q : Except Failure CycleReport → Assertion σ}
    (hend : ∀ report c, R [] report c → Q (.ok report) c)
    (hcheck : ∀ item rest report, T.Ensures (R (item :: rest) report) (p.isRepeated who item.id)
      fun repeated => if repeated = true then
        R rest { report with fetched := report.fetched + 1, skipped := report.skipped + 1 }
        else O item rest report)
    (hdeliver : ∀ item rest report, T.Ensures (O item rest report) (deliver who creds item)
      fun r => match r with
        | .error e => Q (.error e)
        | .ok () => R rest { report with
          fetched := report.fetched + 1, dispatched := report.dispatched + 1 }) :
    ∀ items report, T.Ensures (R items report) (p.offer who creds items report) Q := by
  intro items
  induction items with
  | nil => exact fun report => .pure (hend report)
  | cons item rest ih =>
    intro report
    refine .bind (hcheck item rest report) fun repeated => ?_
    cases repeated with
    | true => exact ih _
    | false =>
      refine .bind (hdeliver item rest report) fun r => ?_
      match r with
      | .error e => exact .pure fun _ hc => hc
      | .ok () => exact ih _

/-- A poll reads once and offers what it read. -/
theorem poll_ensures {path : PathId} {who : Identity} {cursor : Option String} {params : Json.Fields}
    {creds : CredentialSet} {C S : Assertion σ} {R : List Item → Assertion σ}
    {Q : Except Failure CycleReport → Assertion σ} (hS : T.Calm S) (hQ : ∀ r, T.Calm (Q r))
    (hread : T.Ensures C (Plan.one (.read path cursor params)) fun r : Except ReadFailure (List Item) =>
      match r with
      | .error (.rateLimited _) => S
      | .error (.fetch e) => Q (.error (.fetch e))
      | .ok items => R items)
    (hlimited : ∀ wait c, S c → Q (.ok { suspendedFor := some wait }) c)
    (hoffer : ∀ items, T.Ensures (R items) (p.offer who creds items {}) Q) :
    T.Ensures C (p.poll path who cursor params creds) Q := by
  refine .bind hread fun r => ?_
  match r with
  | .error (.rateLimited asked) =>
    refine .bind (hS.one (.count .rateLimited 1) trivial) fun _ => ?_
    exact .bind (hS.one (.suspend asked) trivial) fun wait => .pure (hlimited wait)
  | .error (.fetch e) =>
    exact .bind ((hQ _).one (.count .fetchErrors 1) trivial) fun _ => .pure fun _ hc => hc
  | .ok items =>
    refine .bind (hoffer items) fun r => ?_
    match r with
    | .error e => exact .pure fun _ hc => hc
    | .ok report =>
      refine .bind ((hQ _).one (.count .fetched report.fetched) trivial) fun _ => ?_
      refine .bind ((hQ _).one (.count .dispatched report.dispatched) trivial) fun _ => ?_
      refine .bind ((hQ _).one (.count .skipped report.skipped) trivial) fun _ => ?_
      exact .pure fun _ hc => hc

theorem withSession_ensures {path : PathId} {creds : CredentialSet} {plan : Plan (Except Failure α)}
    {P : Assertion σ} {Q : Except Failure α → Assertion σ} (hP : T.Calm P) (hQ : ∀ r, T.Calm (Q r))
    (hrefused : ∀ e c, P c → Q (.error (.session e)) c) (h : T.Ensures P plan Q) :
    T.Ensures P (withSession path creds plan) Q := by
  unfold withSession
  split
  · exact h
  · rename_i consumer user _
    refine .bind (hP.one (.openSession path consumer user) trivial) fun r => ?_
    match r with
    | .error e => exact .pure (hrefused e)
    | .ok () =>
      refine .bind h fun r => ?_
      exact .bind ((hQ r).one (.closeSession path) trivial) fun _ => .pure fun _ hc => hc

theorem runCycle_ensures {P : Assertion σ} {C : Option String → Assertion σ}
    {Q : Except Failure CycleReport → Assertion σ} (hP : T.Calm P) (hC : ∀ cursor, T.Calm (C cursor))
    (hQ : ∀ r, T.Calm (Q r)) (hidle : ∀ c, P c → Q (.ok {}) c)
    (haborted : ∀ c, P c → Q (.ok { aborted := true }) c)
    (hrefused : ∀ cursor e c, C cursor c → Q (.error (.session e)) c)
    (hcursor : T.Ensures P (Plan.one (.cursor p.background.identity)) C)
    (hpoll : ∀ cursor, T.Ensures (C cursor)
      (p.poll backgroundPath p.background.identity cursor p.settings.query p.background) Q) :
    T.Ensures P p.runCycle Q := by
  refine .bind (hP.one .state trivial) fun s => ?_
  split
  · exact .pure hidle
  refine .bind (hP.one (.count .cycles 1) trivial) fun _ => ?_
  split
  · exact .pure haborted
  refine .bind hcursor fun cursor => ?_
  exact withSession_ensures (hC cursor) hQ (hrefused cursor) (hpoll cursor)

theorem tick_ensures {P : Assertion σ} {Q : Option (Except Failure CycleReport) → Assertion σ}
    (hP : T.Calm P) (hskipped : ∀ c, P c → Q none c)
    (h : T.Ensures P p.runCycle fun r => Q (some r)) : T.Ensures P p.tick Q := by
  refine .bind (hP.one .state trivial) fun s => ?_
  split
  · exact .pure hskipped
  · exact .bind h fun _ => .pure fun _ hc => hc

theorem submit_ensures {path : PathId} {who : Identity} {payload : Option Json.Value}
    {headers : Json.Fields} {creds : CredentialSet} {P : Assertion σ} {U : Item → Assertion σ}
    {Q : Except Failure Bool → Assertion σ} (hP : T.Calm P) (hQ : ∀ r, T.Calm (Q r))
    (hnone : ∀ c, P c → Q (.ok false) c)
    (hupdate : ∀ payload, T.Ensures P (Plan.one (.update path payload headers))
      fun r : Except FetchFailure (Option Item) => match r with
        | .ok (some item) => U item
        | _ => Q (.ok false))
    (hdeliver : ∀ item, T.Ensures (U item) (deliver who creds item) fun r => Q (r.map fun _ => true)) :
    T.Ensures P (submit path who payload headers creds) Q := by
  unfold submit
  split
  · exact .pure hnone
  · rename_i payload
    refine .bind (hP.one (.count .updates 1) trivial) fun _ => ?_
    refine .bind (hupdate payload) fun r => ?_
    match r with
    | .error _ =>
      exact .bind ((hQ _).one (.count .updateErrors 1) trivial) fun _ => .pure fun _ hc => hc
    | .ok none => exact .pure fun _ hc => hc
    | .ok (some item) =>
      refine .bind (hdeliver item) fun r => ?_
      match r with
      | .error e => exact .pure fun _ hc => hc
      | .ok () => exact .pure fun _ hc => hc

theorem commandPoll_ensures {path : PathId} {who : Identity} {creds : CredentialSet} {c : Command}
    {P : Assertion σ} {C : Option String → Assertion σ}
    {Q : Except Failure (Option CycleReport) → Assertion σ}
    (hnone : ∀ ch, P ch → Q (.ok none) ch)
    (hstart : T.Ensures P (startOf who c) C)
    (hpoll : ∀ cursor, T.Ensures (C cursor)
      (p.poll path who cursor (c.params.getD p.settings.query) creds) fun r => Q (r.map some)) :
    T.Ensures P (p.commandPoll path who creds c) Q := by
  unfold commandPoll
  split
  · refine .bind hstart fun cursor => .bind (hpoll cursor) fun r => ?_
    cases r with
    | error e => exact .pure fun _ hc => hc
    | ok report => exact .pure fun _ hc => hc
  · exact .pure hnone

theorem commandUpdate_ensures {path : PathId} {who : Identity} {creds : CredentialSet} {c : Command}
    {P : Assertion σ} {Q : Except Failure (Option Bool) → Assertion σ}
    (hnone : ∀ ch, P ch → Q (.ok none) ch)
    (hsubmit : c.wantsUpdate = true →
      T.Ensures P (submit path who c.payload c.headers creds) fun r => Q (r.map some)) :
    T.Ensures P (commandUpdate path who creds c) Q := by
  unfold commandUpdate
  split
  · rename_i h
    refine .bind (hsubmit h) fun r => ?_
    cases r with
    | error e => exact .pure fun _ hc => hc
    | ok updated => exact .pure fun _ hc => hc
  · exact .pure hnone

/-- A command polls, then updates, with a session around both. -/
theorem handle_ensures {c : Command} {P : Assertion σ} {M : Option CycleReport → Assertion σ}
    {Q : Except Failure CommandReport → Assertion σ} (hP : T.Calm P) (hQ : ∀ r, T.Calm (Q r))
    (haborted : ∀ ch, P ch → Q (.ok { aborted := true }) ch)
    (hfailed : ∀ e ch, P ch → Q (.error e) ch)
    (hpoll : ∀ path, T.Ensures P
      (p.commandPoll path (p.credentialsOf c).identity (p.credentialsOf c) c)
      fun r => match r with
        | .error e => Q (.error e)
        | .ok poll => M poll)
    (hupdate : ∀ path poll, T.Ensures (M poll)
      (commandUpdate path (p.credentialsOf c).identity (p.credentialsOf c) c)
      fun r => Q (r.map fun updated => { poll, updated })) :
    T.Ensures P (p.handle c) Q := by
  unfold handle
  dsimp only
  split
  · exact .pure haborted
  refine .bind (hP.one .create trivial) fun r => ?_
  match r with
  | .error e => exact .pure (hfailed e)
  | .ok path =>
    refine withSession_ensures hP hQ (fun e => hfailed (.session e)) (.bind (hpoll path) fun r => ?_)
    match r with
    | .error e => exact .pure fun _ hc => hc
    | .ok poll =>
      refine .bind (hupdate path poll) fun r => ?_
      cases r with
      | error e => exact .pure fun _ hc => hc
      | ok updated => exact .pure fun _ hc => hc

/-- Every operation is a cycle, or one that is skipped, or a command. -/
theorem plan_ensures {op : Operation} {P : Assertion σ} {Q : Outcome → Assertion σ} (hP : T.Calm P)
    (hskipped : ∀ c, P c → Q .skipped c)
    (hcycle : op = .cycle ∨ op = .tick → T.Ensures P p.runCycle fun r => Q (.cycle r))
    (hcommand : ∀ c, op = .command c → T.Ensures P (p.handle c) fun r => Q (.command r)) :
    T.Ensures P (op.plan p) Q := by
  cases op with
  | cycle => exact .bind (hcycle (.inl rfl)) fun _ => .pure fun _ hc => hc
  | tick =>
    refine .bind (R := fun r => r.elim P fun r => Q (.cycle r))
      (tick_ensures hP (fun _ hc => hc) (hcycle (.inr rfl))) fun r => ?_
    cases r with
    | none => exact .pure hskipped
    | some r => exact .pure fun _ hc => hc
  | command c => exact .bind (hcommand c rfl) fun _ => .pure fun _ hc => hc

/-- An operation is made of looks at the cursor, polls and an update, in turn, all under its identity
and with its credentials. `S` is kept by each of them that goes well; `E` is what holds at the end. -/
theorem parts_ensures {op : Operation} {S E : Assertion σ} (hS : T.Calm S) (hE : T.Calm E)
    (hend : ∀ c, S c → E c)
    (hcursor : T.Ensures S (Plan.one (.cursor (op.identity p))) fun _ => S)
    (hpoll : ∀ path cursor params, T.Ensures S
      (p.poll path (op.identity p) cursor params (op.credentials p))
      fun r => if r.isOk = true then S else E)
    (hsubmit : ∀ path payload headers, T.Ensures S
      (submit path (op.identity p) payload headers (op.credentials p)) fun _ => E) :
    T.Ensures S (op.plan p) fun _ => E := by
  refine plan_ensures hS hend ?_ ?_
  · intro hcycle
    have hcreds : op.credentials p = p.background := by
      obtain rfl | rfl := hcycle <;> rfl
    rw [Operation.identity, hcreds] at hcursor
    refine runCycle_ensures (C := fun _ => S) hS (fun _ => hS) (fun _ => hE) hend hend
      (fun _ _ => hend) hcursor ?_
    intro cursor
    have hfrom := hpoll backgroundPath cursor p.settings.query
    rw [Operation.identity, hcreds] at hfrom
    refine hfrom.mono (fun _ h => h) ?_
    intro r c h
    cases r with
    | error _ => exact h
    | ok _ => exact hend c h
  · rintro c rfl
    refine handle_ensures (M := fun _ => S) hS (fun _ => hE) hend (fun _ => hend) ?_ ?_
    · intro path
      have hcommand : T.Ensures S (p.commandPoll path (p.credentialsOf c).identity
          (p.credentialsOf c) c) fun r => if r.isOk = true then S else E := by
        refine commandPoll_ensures (C := fun _ => S) (fun _ h => h) ?_ ?_
        · unfold startOf
          split
          · exact .pure fun _ h => h
          · exact hcursor
        · intro cursor
          refine (hpoll path cursor _).mono (fun _ h => h) ?_
          intro r c h
          cases r <;> exact h
      refine hcommand.mono (fun _ h => h) ?_
      intro r c h
      cases r <;> exact h
    · intro path poll
      exact commandUpdate_ensures hend fun _ => hsubmit path _ _

/-- Polls of one identity, whether cycles or commands, are a look at its cursor and a poll from there.
`E` is what holds at the end; it is told whether the end is a good one. -/
theorem pollsFor_ensures {who : Identity} {op : Operation} (hop : op.PollsFor p who) {P : Assertion σ}
    {C : Option String → Assertion σ} {E : Prop → Assertion σ} (hP : T.Calm P)
    (hC : ∀ cursor, T.Calm (C cursor)) (hE : ∀ ok, T.Calm (E ok))
    (hmono : ∀ ok ok' c, (ok' → ok) → E ok c → E ok' c) (hunread : ∀ c, P c → E True c)
    (hrefused : ∀ cursor c, C cursor c → E False c)
    (hcursor : T.Ensures P (Plan.one (.cursor who)) C)
    (hpoll : ∀ creds path cursor, creds.identity = who → T.Ensures (C cursor)
      (p.poll path who cursor p.settings.query creds) fun r => E (∃ report, r = .ok report)) :
    T.Ensures P (op.plan p) fun outcome => E outcome.IsOk := by
  have hend : ∀ ok c, P c → E ok c := fun _ c h => hmono _ _ c (fun _ => trivial) (hunread c h)
  have hfailed : ∀ {γ : Type} (e : Failure) c, E False c →
      E (∃ a : γ, (Except.error e : Except Failure γ) = .ok a) c :=
    fun _ c h => hmono _ _ c (fun ⟨_, he⟩ => by cases he) h
  refine plan_ensures hP (hend _) (fun hcycle => ?_) fun c hc => ?_
  · obtain rfl := hop.background hcycle
    exact runCycle_ensures hP hC (fun _ => hE _) (hend _) (hend _)
      (fun cursor _ c h => hfailed _ c (hrefused cursor c h)) hcursor
      fun cursor => hpoll p.background backgroundPath cursor rfl
  · obtain ⟨hwho, hown, hparams, hupdate⟩ := hop.command hc
    refine handle_ensures (M := fun _ => E True) hP (fun _ => hE _) (hend _) (fun _ => hend _)
      (fun path => ?_) fun path poll => ?_
    · rw [hwho]
      refine Ensures.mono (Q := fun r => E (∃ report, r = .ok report))
        (commandPoll_ensures (C := C) (hend _) ?_ fun cursor => ?_) (fun _ h => h) fun r c h => ?_
      · rw [startOf, hown]
        exact hcursor
      · rw [hparams]
        refine (hpoll _ path cursor hwho).mono (fun _ h => h) fun r c h => hmono _ _ c ?_ h
        cases r <;> simp [Except.map]
      · cases r with
        | error e => exact hfailed e c (hmono _ _ c False.elim h)
        | ok poll => exact hmono _ _ c (fun _ => ⟨poll, rfl⟩) h
    · refine commandUpdate_ensures (fun c h => hmono _ _ c (fun _ => trivial) h) fun h => ?_
      rw [hupdate] at h
      cases h

end FeedPoller.Poller
