import FeedPoller.Proofs.Conduct

/-! What an operation did as a walk through its plan: each action that the plan asks for, with what it
gave back. Whatever goes on beside an operation has a part in the replies alone. Main statement: in
every course, what an operation did by itself is a walk through its plan, to where it stands
(`Rules.Later.walk`). -/

namespace FeedPoller

variable {σ α β : Type} {p : Poller} {b : Backend σ}

/-- An action with what it gave back. -/
structure Answered where
  action : Action
  reply : action.Reply

def Entry.answered (e : Entry σ) : Answered := ⟨e.action, e.reply⟩

/-- What an operation did, the first action first. -/
def Chronicle.walk (c : Chronicle σ) (i : Nat) : List Answered :=
  ((c.own i).map Entry.answered).reverse

theorem Chronicle.walk_cons_self (w : World σ) (e : Entry σ) (log : List (Entry σ)) :
    (⟨w, e :: log⟩ : Chronicle σ).walk e.task =
      (⟨w, log⟩ : Chronicle σ).walk e.task ++ [e.answered] := by
  rw [walk, own_cons_self, List.map_cons, List.reverse_cons]
  rfl

theorem Chronicle.walk_cons_of_ne {w : World σ} {e : Entry σ} {log : List (Entry σ)} {i : Nat}
    (h : e.task ≠ i) :
    (⟨w, e :: log⟩ : Chronicle σ).walk i = (⟨w, log⟩ : Chronicle σ).walk i := by
  rw [walk, own_cons_of_ne h]
  rfl

/-! ## Walks through a plan -/

namespace Plan

/-- Through a plan, action by action, to what is left of it. -/
inductive Walk : Plan α → List Answered → Plan α → Prop
  | here (plan : Plan α) : Walk plan [] plan
  | on {action : Action} {next : action.Reply → Plan α} {reply : action.Reply}
      {steps : List Answered} {rest : Plan α} :
      Walk (next reply) steps rest → Walk (.act action next) (⟨action, reply⟩ :: steps) rest

/-- All the way through a plan, to what it comes to. -/
def ComesTo (plan : Plan α) (steps : List Answered) (a : α) : Prop := Walk plan steps (.done a)

theorem Walk.concat {plan : Plan α} {steps : List Answered} {action : Action}
    {next : action.Reply → Plan α} (h : plan.Walk steps (.act action next)) (reply : action.Reply) :
    plan.Walk (steps ++ [⟨action, reply⟩]) (next reply) := by
  generalize hrest : Plan.act action next = rest at h
  induction h with
  | here plan =>
    subst hrest
    exact .on (.here _)
  | on _ ih => exact .on (ih hrest)

theorem ComesTo.pure {a a' : α} {steps : List Answered}
    (h : (Pure.pure a : Plan α).ComesTo steps a') : steps = [] ∧ a' = a := by
  cases h
  exact ⟨rfl, rfl⟩

theorem ComesTo.one {action : Action} {steps : List Answered} {reply : action.Reply}
    (h : (Plan.one action).ComesTo steps reply) : steps = [⟨action, reply⟩] := by
  cases h with
  | on h =>
    cases h
    rfl

/-- Through one plan after another: up to some point through the first. -/
theorem ComesTo.bind {plan : Plan α} {f : α → Plan β} {steps : List Answered} {y : β}
    (h : (plan >>= f).ComesTo steps y) :
    ∃ x before after, steps = before ++ after ∧ plan.ComesTo before x ∧ (f x).ComesTo after y := by
  induction plan generalizing steps with
  | done x => exact ⟨x, [], steps, rfl, .here _, h⟩
  | act action next ih =>
    cases h with
    | @on _ _ reply steps _ h =>
      obtain ⟨x, before, after, rfl, hbefore, hafter⟩ := ih reply h
      exact ⟨x, ⟨action, reply⟩ :: before, after, rfl, .on hbefore, hafter⟩

/-- Through a plan whose result is only put in another form. -/
theorem ComesTo.of_bind_pure {plan : Plan α} {f : α → Plan β} {steps : List Answered} {y : β}
    (h : (plan >>= f).ComesTo steps y) (hf : ∀ x, ∃ y, f x = Pure.pure y) :
    ∃ x, plan.ComesTo steps x := by
  obtain ⟨x, before, after, rfl, hbefore, hafter⟩ := h.bind
  obtain ⟨_, hpure⟩ := hf x
  rw [hpure] at hafter
  rw [hafter.pure.1, List.append_nil]
  exact ⟨x, hbefore⟩

theorem ComesTo.one_bind {action : Action} {f : action.Reply → Plan β} {steps : List Answered}
    {y : β} (h : (Plan.one action >>= f).ComesTo steps y) :
    ∃ reply after, steps = ⟨action, reply⟩ :: after ∧ (f reply).ComesTo after y := by
  obtain ⟨reply, before, after, rfl, hbefore, hafter⟩ := h.bind
  exact ⟨reply, after, by rw [hbefore.one]; rfl, hafter⟩

/-- On a walk there are only such actions as the plan has. -/
theorem Only.walk {allowed : Action → Prop} {plan rest : Plan α} (h : plan.Only allowed)
    {steps : List Answered} (hwalk : plan.Walk steps rest) :
    ∀ step ∈ steps, allowed step.action := by
  induction hwalk with
  | here => simp
  | @on action next reply steps rest _ ih =>
    obtain ⟨haction, hnext⟩ := h
    exact List.forall_mem_cons.mpr ⟨haction, ih (hnext reply)⟩

end Plan

/-! ## In every course -/

/-- What an operation did is a walk through its plan, to where it stands. -/
theorem Rules.Later.walk {R : Rules p b} {w : World σ} {c : Course σ}
    (hl : R.Later { world := w } c) {i : Nat} {t : Task} (ht : c.tasks[i]? = some t) :
    (t.op.plan p).Walk (c.walk i) t.plan := by
  induction hl generalizing i t with
  | refl => cases ht
  | @tail c c' hl hs ih =>
    cases hs with
    | @begin op _ =>
      obtain ht | ⟨rfl, rfl⟩ := Course.task_begin ht
      · exact ih ht
      · have hnone : c.walk c.tasks.length = [] := by
          rw [Chronicle.walk, (conduct_of_later hl).2.1.own_next]
          rfl
        exact hnone ▸ .here _
    | @act j op action next hj =>
      obtain ⟨rfl, rfl⟩ | ⟨hne, ht⟩ := Course.task_set ht
      · have hwalk := Chronicle.walk_cons_self (c.world.perform p b action).2
          (⟨i, op, c.world, action, (c.world.perform p b action).1.value⟩ : Entry σ) c.log
        rw [Chronicle.perform, hwalk]
        exact (ih hj).concat _
      · rw [Chronicle.perform, Chronicle.walk_cons_of_ne (Ne.symm hne)]
        exact ih ht
    | meanwhile => exact ih ht

/-- All that was done is such as the plans have. -/
theorem Rules.Later.only {R : Rules p b} {w : World σ} {c : Course σ}
    (hl : R.Later { world := w } c) {e : Entry σ} (he : e ∈ c.log) {allowed : Action → Prop}
    (h : (e.op.plan p).Only allowed) : allowed e.action := by
  obtain ⟨t, ht, hop⟩ := hl.signed e he
  have hmem : e.answered ∈ c.walk e.task :=
    List.mem_reverse.mpr (List.mem_map_of_mem (List.mem_filter.mpr ⟨he, decide_eq_true rfl⟩))
  exact (hop ▸ h).walk (hl.walk ht) _ hmem

end FeedPoller
