import FeedPoller.Proofs.SessionBracket

/-! What failures leave behind. A step that fails ends its operation, or only its update: nothing is
delivered, remembered or suspended after it, and the session is closed. Main statement: so it is for
every operation by itself, from whatever state and on any backend (`failures_leave_no_trace`). -/

namespace FeedPoller

variable {σ α β : Type} {p : Poller} {b : Backend σ}

/-! ## Operations by themselves -/

/-- What a plan does with nothing in between, the first action first. -/
def World.doings (p : Poller) (b : Backend σ) (op : Operation) : Plan α → World σ → List (Entry σ)
  | .done _, _ => []
  | .act action next, w =>
    ⟨0, op, w, action, (w.perform p b action).1.value⟩ ::
      doings p b op (next (w.perform p b action).1.value) (w.perform p b action).2

theorem World.run_bind (plan : Plan α) (f : α → Plan β) (w : World σ) :
    w.run p b (plan >>= f) = (w.run p b plan).2.run p b (f (w.run p b plan).1) := by
  induction plan generalizing w with
  | done a => rfl
  | act action next ih => exact ih _ _

theorem World.doings_bind (op : Operation) (plan : Plan α) (f : α → Plan β) (w : World σ) :
    w.doings p b op (plan >>= f) =
      w.doings p b op plan ++ (w.run p b plan).2.doings p b op (f (w.run p b plan).1) := by
  induction plan generalizing w with
  | done a => rfl
  | act action next ih => exact congrArg (_ :: ·) (ih _ _)

theorem World.run_state_bind (f : PollState → Plan α) (w : World σ) :
    w.run p b (Plan.one .state >>= f) = w.run p b (f w.control.state) := rfl

theorem World.doings_state_bind (op : Operation) (f : PollState → Plan α) (w : World σ) :
    w.doings p b op (Plan.one .state >>= f) =
      ⟨0, op, w, .state, w.control.state⟩ :: w.doings p b op (f w.control.state) := rfl

/-- The course in which an operation ran by itself. -/
theorem Rules.Later.run {R : Rules p b} {op : Operation} (plan : Plan Outcome) {c : Chronicle σ} :
    R.Later ⟨c, [⟨op, plan⟩]⟩ ⟨⟨(c.world.run p b plan).2, (c.world.doings p b op plan).reverse ++ c.log⟩,
      [⟨op, .done (c.world.run p b plan).1⟩]⟩ := by
  induction plan generalizing c with
  | done outcome => exact .refl
  | act action next ih =>
    have hstep : R.Step ⟨c, [⟨op, .act action next⟩]⟩
        ⟨(c.perform p b 0 op action).2, [⟨op, next (c.perform p b 0 op action).1⟩]⟩ := .act rfl
    refine Relation.ReflTransGen.head hstep ?_
    rw [World.doings, List.reverse_cons, List.append_assoc]
    exact ih _

/-! ## Traces -/

/-- Nothing was delivered, nothing was remembered, and the control is as it was. -/
structure World.Untouched (w w' : World σ) : Prop where
  history : w'.history = w.history
  sink : w'.sink = w.sink
  control : w'.control = w.control

theorem World.Untouched.refl (w : World σ) : w.Untouched w := ⟨rfl, rfl, rfl⟩

theorem World.Untouched.trans {w w' w'' : World σ} (h : w.Untouched w') (h' : w'.Untouched w'') :
    w.Untouched w'' :=
  ⟨h'.history.trans h.history, h'.sink.trans h.sink, h'.control.trans h.control⟩

/-- Actions for which no path is asked: they cannot fail but for a delivery. -/
def Action.AsksNoPath : Action → Prop
  | .openSession .. | .read .. | .update .. => False
  | _ => True

def Action.NoUpdate : Action → Prop
  | .update .. => False
  | _ => True

instance : DecidablePred Action.NoUpdate
  | .update .. => .isFalse id
  | .state | .generation | .authRequired | .resume | .count .. | .cursor _ | .create | .openSession ..
  | .closeSession _ | .read .. | .suspend _ | .seen .. | .dispatch _ | .record .. => .isTrue trivial

/-- Actions that leave no trace. -/
def Action.IsTraceless : Action → Prop
  | .dispatch _ | .record .. | .suspend _ | .resume => False
  | _ => True

/-- Actions that may still follow a failure. -/
def Action.IsParting : Action → Prop
  | .count .. | .closeSession _ => True
  | _ => False

theorem Action.IsTraceless.untouched {action : Action} (h : action.IsTraceless) (w : World σ) :
    w.Untouched (w.perform p b action).2 := by
  cases action with
  | dispatch | record | suspend | resume => exact h.elim
  | _ => exact ⟨rfl, rfl, rfl⟩

theorem Action.IsParting.isTraceless {action : Action} (h : action.IsParting) :
    action.IsTraceless := by
  cases action with
  | count | closeSession => trivial
  | _ => exact h.elim

/-! ## How a plan takes failures -/

/-- What a plan may come to when a step of it fails: when its session is refused, when it cannot read,
and when its update gives no item. -/
structure Fallout (α : Type) where
  refused : SessionFailure → α → Prop
  unread : FetchFailure → α → Prop
  declined : α → Prop

namespace Plan

/-- Nothing is left to do but to part, and the end is such. -/
def Ends (Q : α → Prop) : Plan α → Prop
  | .done a => Q a
  | .act action next => action.IsParting ∧ ∀ r, Ends Q (next r)

/-- There is nothing to read any more, and an update that gives no item brings about the end. -/
inductive Declines (D : α → Prop) : Plan α → Prop
  | done (a : α) : Declines D (.done a)
  | update {path : PathId} {payload : Json.Value} {headers : Json.Fields}
      {next : Except FetchFailure (Option Item) → Plan α} :
      (∀ e, (next (.error e)).Ends D) → (next (.ok none)).Ends D → (∀ r, Declines D (next r)) →
      Declines D (.act (.update path payload headers) next)
  | other {action : Action} {next : action.Reply → Plan α} :
      action.AsksNoPath → (∀ r, Declines D (next r)) → Declines D (.act action next)

/-- A session that is refused and a read that fails bring about the end. Up to them nothing is done
that leaves a trace. -/
inductive Heeds (F : Fallout α) : Plan α → Prop
  | late {plan : Plan α} : plan.Declines F.declined → Heeds F plan
  | openSession {path : PathId} {consumer user : Credentials}
      {next : Except SessionFailure Unit → Plan α} :
      (∀ e, (next (.error e)).Ends (F.refused e)) → Heeds F (next (.ok ())) →
      Heeds F (.act (.openSession path consumer user) next)
  | read {path : PathId} {cursor : Option String} {params : Json.Fields}
      {next : Except ReadFailure (List Item) → Plan α} :
      (∀ e, (next (.error (.fetch e))).Ends (F.unread e)) → (∀ r, (next r).Declines F.declined) →
      Heeds F (.act (.read path cursor params) next)
  | before {action : Action} {next : action.Reply → Plan α} :
      action.AsksNoPath → action.IsTraceless → (∀ r, Heeds F (next r)) → Heeds F (.act action next)

theorem Heeds.one_bind {F : Fallout α} {action : Action} {f : action.Reply → Plan α}
    (haction : action.AsksNoPath) (htraceless : action.IsTraceless) (hf : ∀ r, (f r).Heeds F) :
    (Plan.one action >>= f).Heeds F := .before haction htraceless hf

theorem Ends.bind {Q : α → Prop} {Q' : β → Prop} {plan : Plan α} {f : α → Plan β} (h : plan.Ends Q)
    (hf : ∀ a, Q a → (f a).Ends Q') : (plan >>= f).Ends Q' := by
  induction plan with
  | done a => exact hf a h
  | act action next ih => exact ⟨h.1, fun r => ih r (h.2 r)⟩

theorem Only.declines {D : α → Prop} {plan : Plan α} (h : plan.Only Action.AsksNoPath) :
    plan.Declines D := by
  induction plan with
  | done a => exact .done a
  | act action next ih => exact .other h.1 fun r => ih r (h.2 r)

theorem Declines.bind {D : α → Prop} {D' : β → Prop} {plan : Plan α} {f : α → Plan β}
    (h : plan.Declines D) (hend : ∀ a, D a → (f a).Ends D') (hf : ∀ a, (f a).Declines D') :
    (plan >>= f).Declines D' := by
  induction h with
  | done a => exact hf a
  | update herror hnone _ ih =>
    exact .update (fun e => (herror e).bind hend) (hnone.bind hend) ih
  | other haction _ ih => exact .other haction ih

theorem Heeds.bind {F : Fallout α} {F' : Fallout β} {plan : Plan α} {f : α → Plan β}
    (h : plan.Heeds F) (hrefused : ∀ e a, F.refused e a → (f a).Ends (F'.refused e))
    (hunread : ∀ e a, F.unread e a → (f a).Ends (F'.unread e))
    (hdeclined : ∀ a, F.declined a → (f a).Ends F'.declined)
    (hf : ∀ a, (f a).Declines F'.declined) : (plan >>= f).Heeds F' := by
  induction h with
  | late h => exact .late (h.bind hdeclined hf)
  | openSession herror _ ih => exact .openSession (fun e => (herror e).bind (hrefused e)) ih
  | read herror hnext =>
    exact .read (fun e => (herror e).bind (hunread e)) fun r => (hnext r).bind hdeclined hf
  | before haction htraceless _ ih => exact .before haction htraceless ih

end Plan

/-! ## What comes of it -/

theorem Plan.Ends.run {Q : α → Prop} {plan : Plan α} (h : plan.Ends Q) (op : Operation)
    (w : World σ) : Q (w.run p b plan).1 ∧ w.Untouched (w.run p b plan).2 ∧
      ∀ e ∈ w.doings p b op plan, e.action.IsParting := by
  induction plan generalizing w with
  | done a => exact ⟨h, .refl w, by simp [World.doings]⟩
  | act action next ih =>
    obtain ⟨haction, hnext⟩ := h
    obtain ⟨hend, huntouched, hdoings⟩ := ih _ (hnext (w.perform p b action).1.value)
      (w.perform p b action).2
    refine ⟨hend, (haction.isTraceless.untouched w).trans huntouched, ?_⟩
    exact List.forall_mem_cons.mpr ⟨haction, hdoings⟩

/-- A session that was refused. -/
def Entry.Refused (e : Entry σ) (failure : SessionFailure) : Prop :=
  match e with
  | ⟨_, _, _, .openSession .., reply⟩ => reply = .error failure
  | _ => False

/-- A read that failed, a rate limit apart. -/
def Entry.Unread (e : Entry σ) (failure : FetchFailure) : Prop :=
  match e with
  | ⟨_, _, _, .read .., reply⟩ => reply = .error (.fetch failure)
  | _ => False

/-- An update that failed or gave no item. -/
def Entry.Declined (e : Entry σ) : Prop :=
  match e with
  | ⟨_, _, _, .update .., reply⟩ => ∀ item, reply ≠ .ok (some item)
  | _ => False

theorem Entry.Refused.noRequest {e : Entry σ} {failure : SessionFailure} (h : e.Refused failure) :
    e.action.NoRead ∧ e.action.NoUpdate := by
  obtain ⟨i, op, w, action, reply⟩ := e
  cases action with
  | read | update => exact h.elim
  | _ => exact ⟨trivial, trivial⟩

theorem Entry.Unread.noUpdate {e : Entry σ} {failure : FetchFailure} (h : e.Unread failure) :
    e.action.NoUpdate := by
  obtain ⟨i, op, w, action, reply⟩ := e
  cases action with
  | update => exact h.elim
  | _ => trivial

theorem Action.IsParting.noRequest {action : Action} (h : action.IsParting) :
    action.NoRead ∧ action.NoUpdate := by
  cases action with
  | read | update => exact h.elim
  | _ => exact ⟨trivial, trivial⟩

theorem Action.IsParting.not_failed {e : Entry σ} (h : e.action.IsParting) :
    (∀ failure, ¬ e.Refused failure) ∧ (∀ failure, ¬ e.Unread failure) ∧ ¬ e.Declined := by
  obtain ⟨i, op, w, action, reply⟩ := e
  cases action with
  | openSession | read | update => exact h.elim
  | _ => exact ⟨fun _ h => h, fun _ h => h, fun h => h⟩

theorem Plan.Declines.run {D : α → Prop} {plan : Plan α} (h : plan.Declines D) (op : Operation)
    (w : World σ) : ∀ e ∈ w.doings p b op plan,
      (∀ failure, ¬ e.Refused failure) ∧ (∀ failure, ¬ e.Unread failure) ∧
        (e.Declined → D (w.run p b plan).1 ∧ e.world.Untouched (w.run p b plan).2) := by
  induction h generalizing w with
  | done a => simp [World.doings]
  | @update path payload headers next herror hnone _ ih =>
    refine List.forall_mem_cons.mpr ⟨⟨fun _ h => h, fun _ h => h, fun hdeclined => ?_⟩, ih _ _⟩
    have hends : (next (w.perform p b (.update path payload headers)).1.value).Ends D := by
      cases hr : (w.perform p b (.update path payload headers)).1.value with
      | error e => exact herror e
      | ok item? =>
        cases item? with
        | none => exact hnone
        | some item => exact absurd hr (hdeclined item)
    have hw : w.Untouched (w.perform p b (.update path payload headers)).2 := ⟨rfl, rfl, rfl⟩
    obtain ⟨hD, huntouched, -⟩ := hends.run op (w.perform p b (.update path payload headers)).2
    exact ⟨hD, hw.trans huntouched⟩
  | @other action next haction _ ih =>
    refine List.forall_mem_cons.mpr ⟨?_, ih _ _⟩
    cases action with
    | openSession | read | update => exact haction.elim
    | _ => exact ⟨fun _ h => h, fun _ h => h, fun h => h.elim⟩

/-- What comes of failed steps, in a run that does `es` and comes to `a`. -/
structure Fallout.Follows (F : Fallout α) (w : World σ) (es : List (Entry σ)) (a : α)
    (w' : World σ) : Prop where
  refused : ∀ e ∈ es, ∀ failure, e.Refused failure →
    F.refused failure a ∧ w.Untouched w' ∧ e.world.Untouched w' ∧
      ∀ e' ∈ es, e'.action.NoRead ∧ e'.action.NoUpdate
  unread : ∀ e ∈ es, ∀ failure, e.Unread failure →
    F.unread failure a ∧ w.Untouched w' ∧ e.world.Untouched w' ∧ ∀ e' ∈ es, e'.action.NoUpdate
  declined : ∀ e ∈ es, e.Declined → F.declined a ∧ e.world.Untouched w'

/-- A step that did not fail has come before. -/
theorem Fallout.Follows.cons {F : Fallout α} {w w₁ w' : World σ} {es : List (Entry σ)} {a : α}
    (h : F.Follows w₁ es a w') {e : Entry σ} (hw : w.Untouched w₁)
    (hread : e.action.NoRead) (hupdate : e.action.NoUpdate) (hopen : ∀ failure, ¬ e.Refused failure) :
    F.Follows w (e :: es) a w' where
  refused e' he' failure hrefused := by
    rcases List.mem_cons.mp he' with rfl | he'
    · exact absurd hrefused (hopen failure)
    · obtain ⟨hF, huntouched, hsince, hdoings⟩ := h.refused e' he' failure hrefused
      exact ⟨hF, hw.trans huntouched, hsince, List.forall_mem_cons.mpr ⟨⟨hread, hupdate⟩, hdoings⟩⟩
  unread e' he' failure hunread := by
    rcases List.mem_cons.mp he' with rfl | he'
    · obtain ⟨i, op, w₂, action, reply⟩ := e'
      cases action with
      | read => exact hread.elim
      | _ => exact hunread.elim
    · obtain ⟨hF, huntouched, hsince, hdoings⟩ := h.unread e' he' failure hunread
      exact ⟨hF, hw.trans huntouched, hsince, List.forall_mem_cons.mpr ⟨hupdate, hdoings⟩⟩
  declined e' he' hdeclined := by
    rcases List.mem_cons.mp he' with rfl | he'
    · obtain ⟨i, op, w₂, action, reply⟩ := e'
      cases action with
      | update => exact hupdate.elim
      | _ => exact hdeclined.elim
    · exact h.declined e' he' hdeclined

/-- A step has failed, and nothing is left but to part. -/
theorem Fallout.Follows.last {F : Fallout α} {w w' : World σ} {e : Entry σ} {rest : List (Entry σ)}
    {a : α} (hworld : e.world = w) (hw : w.Untouched w')
    (hrest : ∀ e' ∈ rest, e'.action.IsParting)
    (hrefused : ∀ failure, e.Refused failure → F.refused failure a)
    (hunread : ∀ failure, e.Unread failure → F.unread failure a) (hdeclined : ¬ e.Declined) :
    F.Follows w (e :: rest) a w' where
  refused e' he' failure h := by
    rcases List.mem_cons.mp he' with rfl | he'
    · exact ⟨hrefused failure h, hw, hworld ▸ hw, List.forall_mem_cons.mpr
        ⟨h.noRequest, fun e he => (hrest e he).noRequest⟩⟩
    · exact absurd h ((hrest e' he').not_failed.1 failure)
  unread e' he' failure h := by
    rcases List.mem_cons.mp he' with rfl | he'
    · exact ⟨hunread failure h, hw, hworld ▸ hw, List.forall_mem_cons.mpr
        ⟨h.noUpdate, fun e he => (hrest e he).noRequest.2⟩⟩
    · exact absurd h ((hrest e' he').not_failed.2.1 failure)
  declined e' he' h := by
    rcases List.mem_cons.mp he' with rfl | he'
    · exact absurd h hdeclined
    · exact absurd h (hrest e' he').not_failed.2.2

theorem Plan.Heeds.follows {F : Fallout α} {plan : Plan α} (h : plan.Heeds F) (op : Operation)
    (w : World σ) :
    F.Follows w (w.doings p b op plan) (w.run p b plan).1 (w.run p b plan).2 := by
  induction h generalizing w with
  | late h =>
    have hrun := h.run (p := p) (b := b) op w
    exact {
      refused := fun e he failure hrefused => absurd hrefused ((hrun e he).1 failure)
      unread := fun e he failure hunread => absurd hunread ((hrun e he).2.1 failure)
      declined := fun e he => (hrun e he).2.2 }
  | @openSession path consumer user next herror _ ih =>
    have hw : w.Untouched (w.perform p b (.openSession path consumer user)).2 := ⟨rfl, rfl, rfl⟩
    cases hr : (w.perform p b (.openSession path consumer user)).1.value with
    | error failure =>
      have hends : (next (w.perform p b (.openSession path consumer user)).1.value).Ends
          (F.refused failure) := hr ▸ herror failure
      obtain ⟨hF, huntouched, hrest⟩ :=
        hends.run op (w.perform p b (.openSession path consumer user)).2
      refine .last rfl (hw.trans huntouched) hrest ?_ (fun _ h => h.elim) (fun h => h)
      intro failure' hrefused
      obtain rfl : failure = failure' := Except.error.inj (hr.symm.trans hrefused)
      exact hF
    | ok u =>
      have hrest := ih (w.perform p b (.openSession path consumer user)).2
      rw [← show (w.perform p b (.openSession path consumer user)).1.value = .ok () from hr] at hrest
      refine hrest.cons hw trivial trivial ?_
      intro failure hrefused
      exact absurd (hr.symm.trans hrefused) (by simp)
  | @read path cursor params next herror hnext =>
    have hw : w.Untouched (w.perform p b (.read path cursor params)).2 := ⟨rfl, rfl, rfl⟩
    by_cases hfailed : ∃ failure, (w.perform p b (.read path cursor params)).1.value =
        .error (.fetch failure)
    · obtain ⟨failure, hr⟩ := hfailed
      have hends : (next (w.perform p b (.read path cursor params)).1.value).Ends
          (F.unread failure) := hr ▸ herror failure
      obtain ⟨hF, huntouched, hrest⟩ := hends.run op (w.perform p b (.read path cursor params)).2
      refine .last rfl (hw.trans huntouched) hrest (fun _ h => h.elim) ?_ (fun h => h)
      intro failure' hunread
      obtain rfl : failure = failure' := by simpa using hr.symm.trans hunread
      exact hF
    · have hrest := (hnext (w.perform p b (.read path cursor params)).1.value).run (p := p) (b := b)
        op (w.perform p b (.read path cursor params)).2
      exact {
        refused := fun e he failure hrefused => by
          rcases List.mem_cons.mp he with rfl | he
          · exact hrefused.elim
          · exact absurd hrefused ((hrest e he).1 failure)
        unread := fun e he failure hunread => by
          rcases List.mem_cons.mp he with rfl | he
          · exact absurd ⟨failure, hunread⟩ hfailed
          · exact absurd hunread ((hrest e he).2.1 failure)
        declined := fun e he hdeclined => by
          rcases List.mem_cons.mp he with rfl | he
          · exact hdeclined.elim
          · exact (hrest e he).2.2 hdeclined }
  | @before action next haction htraceless _ ih =>
    refine (ih _ (w.perform p b action).2).cons (htraceless.untouched w) ?_ ?_ ?_
    all_goals
      cases action with
      | openSession | read | update => exact haction.elim
      | _ => simp [Entry.Refused, Action.NoRead, Action.NoUpdate]

/-! ## Operations -/

/-- What an operation that may fail comes to: the failure, or an end for want of an item. -/
def Fallout.of (D : α → Prop) : Fallout (Except Failure α) where
  refused e r := r = .error (.session e)
  unread e r := r = .error (.fetch e)
  declined r := ∃ a, r = .ok a ∧ D a

theorem Plan.Heeds.of_bind {D : α → Prop} {F : Fallout β} {plan : Plan (Except Failure α)}
    {f : Except Failure α → Plan β} (h : plan.Heeds (.of D))
    (hrefused : ∀ e, (f (.error (.session e))).Ends (F.refused e))
    (hunread : ∀ e, (f (.error (.fetch e))).Ends (F.unread e))
    (hdeclined : ∀ a, D a → (f (.ok a)).Ends F.declined)
    (hf : ∀ r, (f r).Declines F.declined) : (plan >>= f).Heeds F := by
  refine h.bind ?_ ?_ ?_ hf
  · rintro e _ rfl
    exact hrefused e
  · rintro e _ rfl
    exact hunread e
  · rintro _ ⟨a, rfl, ha⟩
    exact hdeclined a ha

namespace Poller

open Plan

variable {who : Identity} {creds : CredentialSet} {path : PathId}

theorem deliver_asksNoPath (item : Item) : (deliver who creds item).Only Action.AsksNoPath :=
  deliver_only trivial trivial

theorem poll_heeds (D : CycleReport → Prop) (cursor : Option String) (params : Json.Fields) :
    (p.poll path who cursor params creds).Heeds (.of D) := by
  have hoffer : ∀ items, (p.offer who creds items {}).Only Action.AsksNoPath :=
    fun items => offer_only (fun _ => trivial) (fun _ => trivial) (fun _ => trivial) items {}
  obtain ⟨next, hpoll, hnext, hfetch⟩ := poll_reads (fun _ _ => trivial)
    (fun _ => trivial) hoffer path cursor params
  rw [hpoll]
  refine .read ?_ fun r => (hnext r).declines
  intro e
  show (next (.error (.fetch e))).Ends _
  rw [hfetch]
  exact ⟨trivial, fun _ => rfl⟩

theorem withSession_heeds {D : α → Prop} {plan : Plan (Except Failure α)} (h : plan.Heeds (.of D)) :
    (withSession path creds plan).Heeds (.of D) := by
  unfold withSession
  split
  · exact h
  · refine .openSession (fun e => rfl) (h.bind ?_ ?_ ?_ ?_)
    · exact fun e r hr => ⟨trivial, fun _ => hr⟩
    · exact fun e r hr => ⟨trivial, fun _ => hr⟩
    · exact fun r hr => ⟨trivial, fun _ => hr⟩
    · exact fun r => .other trivial fun _ => .done r

theorem runCycle_heeds (D : CycleReport → Prop) : p.runCycle.Heeds (.of D) := by
  refine .one_bind trivial trivial fun s => ?_
  split
  · exact .late (.done _)
  · refine .one_bind trivial trivial fun _ => ?_
    split
    · exact .late (.done _)
    · exact .one_bind trivial trivial fun cursor => withSession_heeds (poll_heeds D ..)

theorem startOf_heeds {F : Fallout α} (c : Command) {f : Option String → Plan α}
    (hf : ∀ cursor, (f cursor).Heeds F) : (startOf who c >>= f).Heeds F := by
  unfold startOf
  split
  · exact hf _
  · exact .one_bind trivial trivial hf

theorem commandPoll_heeds (D : Option CycleReport → Prop) (c : Command) :
    (p.commandPoll path who creds c).Heeds (.of D) := by
  unfold commandPoll
  split
  · refine startOf_heeds c fun cursor => ?_
    refine (poll_heeds (fun _ => False) cursor _).of_bind (fun _ => rfl) (fun _ => rfl)
      (fun _ h => h.elim) ?_
    intro r
    cases r <;> exact .done _
  · exact .late (.done _)

theorem submit_declines (payload : Option Json.Value) (headers : Json.Fields) :
    (submit path who payload headers creds).Declines (· = .ok false) := by
  unfold submit
  split
  · exact .done _
  · refine .other trivial fun _ => .update ?_ rfl ?_
    · exact fun e => ⟨trivial, fun _ => rfl⟩
    · intro r
      match r with
      | .error _ => exact .other trivial fun _ => .done _
      | .ok none => exact .done _
      | .ok (some item) =>
        refine (deliver_asksNoPath item).declines.bind (fun _ h => h) ?_
        intro r
        match r with
        | .error _ => exact .done _
        | .ok () => exact .done _

theorem commandUpdate_declines (c : Command) :
    (commandUpdate path who creds c).Declines (· = .ok (some false)) := by
  unfold commandUpdate
  split
  · refine (submit_declines _ _).bind ?_ ?_
    · rintro _ rfl
      exact rfl
    · intro r
      cases r <;> exact .done _
  · exact .done _

/-- The report of a command whose update gave no item. -/
def Declining (report : CommandReport) : Prop := ∃ poll, report = { poll, updated := some false }

theorem handle_heeds (c : Command) : (p.handle c).Heeds (.of Declining) := by
  unfold handle
  dsimp only
  split
  · exact .late (.done _)
  · refine .one_bind trivial trivial fun r => ?_
    match r with
    | .error _ => exact .late (.done _)
    | .ok path =>
      refine withSession_heeds ((commandPoll_heeds (fun _ => False) c).of_bind (fun _ => rfl)
        (fun _ => rfl) (fun _ h => h.elim) ?_)
      intro r
      match r with
      | .error _ => exact .done _
      | .ok poll =>
        refine (commandUpdate_declines c).bind ?_ ?_
        · rintro _ rfl
          exact ⟨_, rfl, poll, rfl⟩
        · intro r
          cases r <;> exact .done _

end Poller

namespace Operation

/-- What an operation comes to that fails. -/
def failed : Operation → Failure → Outcome
  | .cycle, e | .tick, e => .cycle (.error e)
  | .command _, e => .command (.error e)

def fallout (op : Operation) : Fallout Outcome where
  refused e outcome := outcome = op.failed (.session e)
  unread e outcome := outcome = op.failed (.fetch e)
  declined outcome := ∃ poll, outcome = .command (.ok { poll, updated := some false })

theorem plan_heeds (op : Operation) : (op.plan p).Heeds op.fallout := by
  cases op with
  | cycle =>
    exact (Poller.runCycle_heeds fun _ => False).of_bind (fun _ => rfl) (fun _ => rfl)
      (fun _ h => h.elim) fun _ => .done _
  | tick =>
    have hcycle : (p.runCycle >>= fun r => pure (some r)).Heeds
        ⟨fun e r => r = some (.error (.session e)), fun e r => r = some (.error (.fetch e)),
          fun _ => False⟩ :=
      (Poller.runCycle_heeds fun _ => False).of_bind (fun _ => rfl) (fun _ => rfl)
        (fun _ h => h.elim) fun _ => .done _
    have htick : p.tick.Heeds ⟨fun e r => r = some (.error (.session e)),
        fun e r => r = some (.error (.fetch e)), fun _ => False⟩ := by
      refine .one_bind trivial trivial fun s => ?_
      split
      · exact .late (.done _)
      · exact hcycle
    refine htick.bind ?_ ?_ (fun _ h => h.elim) ?_
    · rintro e _ rfl
      exact rfl
    · rintro e _ rfl
      exact rfl
    · intro r
      cases r <;> exact .done _
  | command c =>
    refine (Poller.handle_heeds c).of_bind (fun _ => rfl) (fun _ => rfl) ?_ fun _ => .done _
    rintro _ ⟨poll, rfl⟩
    exact ⟨poll, rfl⟩

/-- What an operation comes to that is given up: for want of a consumer, or because polling is
suspended. -/
def givenUp : Operation → PollState → Outcome
  | .tick, .suspended => .skipped
  | .cycle, .suspended => .cycle (.ok {})
  | .cycle, .running | .tick, .running => .cycle (.ok { aborted := true })
  | .command _, _ => .command (.ok { aborted := true })

/-- A cycle is given up with nothing done but to look up the state and to count it. -/
theorem runCycle_givenUp {w : World σ}
    (h : p.background.mismatched = true ∨ w.control.state = .suspended) (op : Operation) :
    (w.run p b p.runCycle).1 = .ok { aborted := decide (w.control.state = .running) } ∧
      w.Untouched (w.run p b p.runCycle).2 ∧ (w.run p b p.runCycle).2.backend = w.backend ∧
      ∀ e ∈ w.doings p b op p.runCycle, e.action = .state ∨ e.action = .count .cycles 1 := by
  rw [Poller.runCycle, World.run_state_bind, World.doings_state_bind]
  cases hs : w.control.state with
  | suspended => exact ⟨rfl, .refl w, rfl, by simp [World.doings, Pure.pure]⟩
  | running =>
    obtain hm | hs' := h
    · simp only [hm]
      refine ⟨rfl, ⟨rfl, rfl, rfl⟩, rfl, ?_⟩
      intro e he
      rcases List.mem_cons.mp he with rfl | he
      · exact .inl rfl
      · obtain rfl := List.mem_singleton.mp he
        exact .inr rfl
    · rw [hs] at hs'
      cases hs'

/-- It leaves no trace, calls no path and makes none. -/
theorem plan_givenUp {op : Operation} {w : World σ} (h : (op.credentials p).mismatched = true ∨
      op.IsScheduled ∧ w.control.state = .suspended) :
    (w.run p b (op.plan p)).1 = op.givenUp w.control.state ∧
      w.Untouched (w.run p b (op.plan p)).2 ∧ (w.run p b (op.plan p)).2.backend = w.backend ∧
      ∀ e ∈ w.doings p b op (op.plan p), e.action = .state ∨ e.action = .count .cycles 1 := by
  cases op with
  | cycle =>
    obtain ⟨hend, huntouched, hbackend, hdoings⟩ :=
      runCycle_givenUp (p := p) (b := b) (h.imp id And.right) .cycle
    rw [plan, World.run_bind, World.doings_bind, hend]
    refine ⟨?_, huntouched, hbackend, by simpa [World.doings, Pure.pure] using hdoings⟩
    cases w.control.state <;> rfl
  | tick =>
    obtain ⟨hend, huntouched, hbackend, hdoings⟩ :=
      runCycle_givenUp (p := p) (b := b) (h.imp id And.right) .tick
    rw [plan, Poller.tick, bind_assoc, World.run_state_bind, World.doings_state_bind]
    cases hs : w.control.state with
    | suspended =>
      refine ⟨rfl, .refl w, rfl, ?_⟩
      intro e he
      obtain rfl := List.mem_singleton.mp he
      exact .inl rfl
    | running =>
      simp only [reduceCtorEq, if_false]
      rw [bind_assoc, World.run_bind, World.doings_bind, hend, hs]
      refine ⟨rfl, huntouched, hbackend, List.forall_mem_cons.mpr ⟨.inl rfl, ?_⟩⟩
      intro e he
      rcases List.mem_append.mp he with he | he
      · exact hdoings e he
      · cases he
  | command c =>
    obtain hm | ⟨hscheduled, -⟩ := h
    · have hplan : (Operation.command c).plan p = pure (.command (.ok { aborted := true })) := by
        have hcreds : (p.credentialsOf c).mismatched = true := hm
        rw [plan, Poller.handle, if_pos hcreds]
        rfl
      rw [hplan]
      exact ⟨rfl, .refl w, rfl, by simp [World.doings, Pure.pure]⟩
    · exact hscheduled.elim

end Operation

/-! ## Updates without a payload -/

namespace Poller

/-- A report, unless nothing was done at all, with an update added that gave no item. -/
def undone (report : CommandReport) : CommandReport :=
  if report.aborted then report else { report with updated := some false }

theorem withSession_map (path : PathId) (creds : CredentialSet) (plan : Plan (Except Failure α))
    (f : α → β) : withSession path creds (plan >>= fun r => pure (r.map f)) =
      withSession path creds plan >>= fun r => pure (r.map f) := by
  unfold withSession
  split
  · rfl
  · rw [bind_assoc]
    refine bind_congr fun r => ?_
    have hclose : (plan >>= fun r => pure (r.map f) >>= fun result =>
        Plan.one (.closeSession path) >>= fun _ => pure result) =
        (plan >>= fun result => Plan.one (.closeSession path) >>= fun _ => pure result) >>=
          fun r => pure (r.map f) := by
      simp only [bind_assoc, pure_bind]
    match r with
    | .error _ => rfl
    | .ok () => exact hclose

/-- An update that is asked for without a payload is as if none was made, but for the report. -/
theorem handle_payloadless {c : Command} (hwants : c.wantsUpdate = true)
    (hpayload : c.payload = none) :
    p.handle c = p.handle { c with update := some false } >>= fun r => pure (r.map undone) := by
  have hupdate : ∀ path who creds,
      commandUpdate path who creds c = pure (.ok (some false)) ∧
        commandUpdate path who creds { c with update := some false } = pure (.ok none) := by
    intro path who creds
    constructor
    · rw [commandUpdate, if_pos hwants, hpayload]
      rfl
    · rfl
  have hcreds : p.credentialsOf { c with update := some false } = p.credentialsOf c := rfl
  unfold handle
  rw [hcreds]
  dsimp only
  split
  · rfl
  · rw [bind_assoc]
    refine bind_congr fun r => ?_
    match r with
    | .error _ => rfl
    | .ok path =>
      rw [← withSession_map, bind_assoc]
      refine congrArg (withSession path (p.credentialsOf c)) ?_
      refine bind_congr fun r => ?_
      match r with
      | .error _ => rfl
      | .ok poll =>
        rw [(hupdate _ _ _).1, (hupdate _ _ _).2]
        rfl

end Poller

/-! ## Every operation by itself -/

/-- What comes of failures in an operation that does `es` from `w` on, comes to `outcome` and ends in
`w'`: besides what follows a failed step, nothing is done if it is given up, an update without a payload
changes nothing but the report, and no session stays open. Where the backend has sessions of its own, it
has none at the end on a path that had none or that was not there. -/
structure FailsCleanly (p : Poller) (b : Backend σ) (op : Operation) (w : World σ)
    (es : List (Entry σ)) (outcome : Outcome) (w' : World σ) : Prop
    extends op.fallout.Follows w es outcome w' where
  givenUp : (op.credentials p).mismatched = true ∨ op.IsScheduled ∧ w.control.state = .suspended →
    outcome = op.givenUp w.control.state ∧ w.Untouched w' ∧ w'.backend = w.backend ∧
      ∀ e ∈ es, e.action = .state ∨ e.action = .count .cycles 1
  payloadless : ∀ c, op = .command c → c.wantsUpdate = true → c.payload = none →
    ∃ r, w.run p b (p.handle { c with update := some false }) = (r, w') ∧
      outcome = .command (r.map Poller.undone)
  closed : ∀ path, sessionOf path (calls es.reverse) = none
  inactive : ∀ a : SessionAware b, a.fits w.backend → ∀ path, a.made path w'.backend →
    (a.made path w.backend → a.isActive path w.backend = false) → a.isActive path w'.backend = false

namespace Operation

/-- The course in which nothing but this operation was done. -/
theorem later_run (p : Poller) (b : Backend σ) (moves : σ → σ → Prop) (op : Operation) (w : World σ) :
    (alone p b moves op).Later { world := w }
      ⟨⟨(w.run p b (op.plan p)).2, (w.doings p b op (op.plan p)).reverse⟩,
        [⟨op, .done (w.run p b (op.plan p)).1⟩]⟩ := by
  have hbegun : (alone p b moves op).Later { world := w } ⟨⟨w, []⟩, [⟨op, op.plan p⟩]⟩ :=
    Rules.Later.begin .refl ⟨rfl, rfl⟩
  have hrun : (alone p b moves op).Later ⟨⟨w, []⟩, [⟨op, op.plan p⟩]⟩ _ := Rules.Later.run (op.plan p)
  rw [List.append_nil] at hrun
  exact hbegun.trans hrun

/-- Whatever it came to, each session that an operation opened it has closed. -/
theorem settled_run (p : Poller) (b : Backend σ) (op : Operation) (w : World σ) :
    Settled p op (w.doings p b op (op.plan p)).reverse :=
  settled_of_alone (later_run p b (fun _ _ => False) op w) rfl

/-- So none is active that was not. -/
theorem inactive_run (a : SessionAware b) (op : Operation) {w : World σ} (hfits : a.fits w.backend)
    {path : PathId} (hmade : a.made path (w.run p b (op.plan p)).2.backend)
    (hquiet : a.made path w.backend → a.isActive path w.backend = false) :
    a.isActive path (w.run p b (op.plan p)).2.backend = false := by
  have htracks := SessionAware.tracks_of_later (fun _ _ hmove => hmove) hfits
    (later_run p b (a.Keeps none) op w)
  rw [htracks.now.active path hmade hquiet, (settled_run p b op w).session]
  rfl

end Operation

/-- In every operation by itself, from whatever state and on any backend, a failure leaves nothing
behind. -/
theorem failures_leave_no_trace (p : Poller) (b : Backend σ) (op : Operation) (w : World σ) :
    FailsCleanly p b op w (w.doings p b op (op.plan p)) (w.run p b (op.plan p)).1
      (w.run p b (op.plan p)).2 := by
  refine { (op.plan_heeds.follows op w) with
    givenUp := Operation.plan_givenUp, payloadless := ?_,
    closed := fun _ => (op.settled_run p b w).session _,
    inactive := fun a hfits _ => op.inactive_run a hfits }
  rintro c rfl hwants hpayload
  refine ⟨(w.run p b (p.handle { c with update := some false })).1, ?_⟩
  rw [Operation.plan, Poller.handle_payloadless hwants hpayload, bind_assoc, World.run_bind]
  exact ⟨rfl, rfl⟩

/-- A script without sessions: an item can be read, but updates fail. -/
def swallowing : World Script where
  backend := { fresh := true, created := 1, reads := [⟨.ok [⟨"a", .null, []⟩], none⟩],
               updates := [⟨.error ⟨"timeout", none⟩, none⟩] }
  history := .new 100 true

/-- A feed that cannot be reached. -/
def unreachable : World StatusFeed where
  backend := (StatusFeed.create {
    source := { kind := .home, baseUrl := "http://feed" }, transport := .prepared { replies := [] },
    moment := ⟨0⟩ }).2
  history := .new 100 true

/-- What the command for a poll and an update does there. -/
def pollAndPostEntries (b : Backend σ) (w : World σ) : List (Entry σ) :=
  w.doings Script.forUser b (.command Script.pollAndPost)
    ((Operation.command Script.pollAndPost).plan Script.forUser)

def pollAndPostRun (b : Backend σ) (w : World σ) : Outcome × World σ :=
  w.run Script.forUser b ((Operation.command Script.pollAndPost).plan Script.forUser)

/-- The script's item was delivered before the update failed, and stays so. The feed's read fails with
the session open: no update is tried, and the session is closed. -/
theorem pollAndPost_leaves_no_trace :
    (pollAndPostRun Script.backend swallowing).1 = .command (.ok {
        poll := some { fetched := 1, dispatched := 1 }, updated := some false }) ∧
      (∃ e ∈ pollAndPostEntries Script.backend swallowing, e.Declined ∧
        e.world.sink.accepted.length = 1 ∧
        e.world.Untouched (pollAndPostRun Script.backend swallowing).2) ∧
      (pollAndPostRun StatusFeed.backend unreachable).1 = .command (.error (.fetch
        ⟨"no fixture response queued for http://feed/statuses/home_timeline.xml", none⟩)) ∧
      unreachable.Untouched (pollAndPostRun StatusFeed.backend unreachable).2 ∧
      (∀ e ∈ pollAndPostEntries StatusFeed.backend unreachable, e.action.NoUpdate) ∧
      StatusFeed.sessionAware.isActive 1 (pollAndPostRun StatusFeed.backend unreachable).2.backend =
        false := by
  have hscript : FailsCleanly Script.forUser Script.backend (.command Script.pollAndPost) swallowing
      (pollAndPostEntries Script.backend swallowing) (pollAndPostRun Script.backend swallowing).1
      (pollAndPostRun Script.backend swallowing).2 := failures_leave_no_trace ..
  have hfeed : FailsCleanly Script.forUser StatusFeed.backend (.command Script.pollAndPost) unreachable
      (pollAndPostEntries StatusFeed.backend unreachable)
      (pollAndPostRun StatusFeed.backend unreachable).1
      (pollAndPostRun StatusFeed.backend unreachable).2 := failures_leave_no_trace ..
  have hupdate := List.get_mem (pollAndPostEntries Script.backend swallowing) ⟨10, by decide⟩
  have hread := List.get_mem (pollAndPostEntries StatusFeed.backend unreachable) ⟨3, by decide⟩
  have hreason : "no fixture response queued for " ++
      (unreachable.backend.path backgroundPath).source.url "statuses/home_timeline" =
        "no fixture response queued for http://feed/statuses/home_timeline.xml" := by
    decide +kernel
  obtain ⟨-, hkept⟩ := hscript.declined _ hupdate nofun
  obtain ⟨hfailed, huntouched, -, hnone⟩ := hfeed.unread _ hread _ rfl
  change (pollAndPostRun StatusFeed.backend unreachable).1 = .command (.error (.fetch
    ⟨"no fixture response queued for " ++
      (unreachable.backend.path backgroundPath).source.url "statuses/home_timeline", none⟩)) at hfailed
  rw [hreason] at hfailed
  refine ⟨rfl, ⟨_, hupdate, nofun, rfl, hkept⟩, hfailed, huntouched, hnone, ?_⟩
  exact hfeed.inactive StatusFeed.sessionAware Nat.one_pos 1 Nat.one_lt_two fun _ => rfl

end FeedPoller
