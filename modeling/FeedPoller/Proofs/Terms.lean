import FeedPoller.Proofs.Course

/-! What a plan ensures while other things go on. A plan runs on terms: between its actions the
chronicle changes only in ways it may rely on, and each of its actions changes it only in ways that are
owed. It leads to a property of its outcome when all its actions keep the terms, whatever happens in
between, and its end has the property. Main statements: plans side by side still lead where they led
(`Beside.holds`, `Together.holds`), and so does the one under way when operations take turns
(`InTurn.holds`). -/

namespace FeedPoller

variable {σ α β : Type} {p : Poller} {b : Backend σ}

abbrev Assertion (σ : Type) := Chronicle σ → Prop

/-- Actions that concern neither what the feed gives nor what is delivered or remembered. -/
def Action.IsAside : Action → Prop
  | .cursor _ | .read .. | .update .. | .seen .. | .dispatch _ | .record .. => False
  | _ => True

theorem Action.IsAside.ne_record {action : Action} (h : action.IsAside) (who : Identity)
    (id : String) : action ≠ .record who id := by
  rintro rfl
  exact h.elim

theorem Action.IsAside.ne_dispatch {action : Action} (h : action.IsAside) (d : Delivery) :
    action ≠ .dispatch d := by
  rintro rfl
  exact h.elim

theorem Action.IsAside.ne_read {action : Action} (h : action.IsAside) (path : PathId)
    (cursor : Option String) (params : Json.Fields) : action ≠ .read path cursor params := by
  rintro rfl
  exact h.elim

/-- Actions other than reads. -/
def Action.NoRead : Action → Prop
  | .read .. => False
  | _ => True

theorem World.history_perform (w : World σ) {action : Action}
    (h : ∀ who id, action ≠ .record who id) : (w.perform p b action).2.history = w.history := by
  cases action with
  | record who id => exact absurd rfl (h who id)
  | _ => rfl

theorem World.sink_perform (w : World σ) {action : Action} (h : ∀ d, action ≠ .dispatch d) :
    (w.perform p b action).2.sink = w.sink := by
  cases action with
  | dispatch d => exact absurd rfl (h d)
  | _ => rfl

structure Terms (p : Poller) (b : Backend σ) where
  task : Nat
  op : Operation
  rely : Chronicle σ → Chronicle σ → Prop
  owed : Chronicle σ → Chronicle σ → Prop

namespace Terms

variable {T : Terms p b}

/-- The reply to an action and the chronicle after it. -/
abbrev perform (T : Terms p b) (c : Chronicle σ) (action : Action) : action.Reply × Chronicle σ :=
  c.perform p b T.task T.op action

/-- The chronicle after an action that gave a reply and left a world. -/
def after (T : Terms p b) (c : Chronicle σ) (action : Action) (reply : action.Reply) (w : World σ) :
    Chronicle σ := ⟨w, ⟨T.task, T.op, c.world, action, reply⟩ :: c.log⟩

def Leads (T : Terms p b) (post : α → Assertion σ) : Plan α → Assertion σ
  | .done a, c => post a c
  | .act action next, c => ∀ c', T.rely c c' →
      T.owed c' (T.perform c' action).2 ∧
        Leads T post (next (T.perform c' action).1) (T.perform c' action).2

def Ensures (T : Terms p b) (P : Assertion σ) (plan : Plan α) (Q : α → Assertion σ) : Prop :=
  ∀ c, P c → T.Leads Q plan c

/-- Whatever holds before an action must last until it is done. -/
def Lasts (T : Terms p b) (P : Assertion σ) : Prop := ∀ c c', P c → T.rely c c' → P c'

/-- Actions aside keep the terms and the assertion. -/
structure Calm (T : Terms p b) (P : Assertion σ) : Prop where
  lasts : T.Lasts P
  aside : ∀ c action, action.IsAside → P c →
    T.owed c (T.perform c action).2 ∧ P (T.perform c action).2

/-! ## Rules for plans -/

theorem Leads.mono {Q Q' : α → Assertion σ} (hQ : ∀ a c, Q a c → Q' a c) {plan : Plan α} :
    ∀ {c}, T.Leads Q plan c → T.Leads Q' plan c := by
  induction plan with
  | done a => exact fun h => hQ a _ h
  | act action next ih =>
    intro c h c' hc
    obtain ⟨howed, hnext⟩ := h c' hc
    exact ⟨howed, ih _ hnext⟩

theorem Leads.bind {R : α → Assertion σ} {Q : β → Assertion σ} {f : α → Plan β} {plan : Plan α}
    (hf : ∀ a, T.Ensures (R a) (f a) Q) : ∀ {c}, T.Leads R plan c → T.Leads Q (plan >>= f) c := by
  induction plan with
  | done a => exact fun h => hf a _ h
  | act action next ih =>
    intro c h c' hc
    obtain ⟨howed, hnext⟩ := h c' hc
    exact ⟨howed, ih _ hnext⟩

/-- A plan still leads there after what it may rely on to happen. -/
theorem Leads.later {Q : α → Assertion σ}
    (htrans : ∀ c c' c'', T.rely c c' → T.rely c' c'' → T.rely c c'') (hQ : ∀ a, T.Lasts (Q a))
    {plan : Plan α} {c c' : Chronicle σ} (h : T.Leads Q plan c) (hc : T.rely c c') :
    T.Leads Q plan c' := by
  cases plan with
  | done a => exact hQ a c c' h hc
  | act action next => exact fun c'' hc' => h c'' (htrans c c' c'' hc hc')

theorem Ensures.pure {P : Assertion σ} {Q : α → Assertion σ} {a : α} (h : ∀ c, P c → Q a c) :
    T.Ensures P (pure a) Q := h

theorem Ensures.bind {P : Assertion σ} {R : α → Assertion σ} {Q : β → Assertion σ} {plan : Plan α}
    {f : α → Plan β} (h : T.Ensures P plan R) (hf : ∀ a, T.Ensures (R a) (f a) Q) :
    T.Ensures P (plan >>= f) Q := fun c hc => (h c hc).bind hf

theorem Ensures.mono {P P' : Assertion σ} {Q Q' : α → Assertion σ} {plan : Plan α}
    (h : T.Ensures P plan Q) (hP : ∀ c, P' c → P c) (hQ : ∀ a c, Q a c → Q' a c) :
    T.Ensures P' plan Q' := fun c hc => (h c (hP c hc)).mono hQ

theorem Ensures.one {P : Assertion σ} {action : Action} {Q : action.Reply → Assertion σ}
    (hP : T.Lasts P)
    (h : ∀ c, P c → T.owed c (T.perform c action).2 ∧
      Q (T.perform c action).1 (T.perform c action).2) :
    T.Ensures P (Plan.one action) Q := fun c hc c' hcc => h c' (hP c c' hc hcc)

theorem Ensures.cursor {P : Assertion σ} {who : Identity} {Q : Option String → Assertion σ}
    (hP : T.Lasts P)
    (h : ∀ c, P c → T.owed c (T.after c (.cursor who) (c.world.history.cursor who) c.world) ∧
      Q (c.world.history.cursor who)
        (T.after c (.cursor who) (c.world.history.cursor who) c.world)) :
    T.Ensures P (Plan.one (.cursor who)) Q := .one hP h

theorem Ensures.seen {P : Assertion σ} {who : Identity} {id : String} {Q : Bool → Assertion σ}
    (hP : T.Lasts P)
    (h : ∀ c, P c → T.owed c (T.after c (.seen who id) (c.world.history.seen who id) c.world) ∧
      Q (c.world.history.seen who id)
        (T.after c (.seen who id) (c.world.history.seen who id) c.world)) :
    T.Ensures P (Plan.one (.seen who id)) Q := .one hP h

theorem Ensures.read {P : Assertion σ} {path : PathId} {cursor : Option String}
    {params : Json.Fields} {Q : Except ReadFailure (List Item) → Assertion σ} (hP : T.Lasts P)
    (h : ∀ c r s, P c → (b.read path cursor params c.world.backend).1.value = r →
      (b.read path cursor params c.world.backend).2 = s →
      T.owed c (T.after c (.read path cursor params) r { c.world with backend := s }) ∧
        Q r (T.after c (.read path cursor params) r { c.world with backend := s })) :
    T.Ensures P (Plan.one (.read path cursor params)) Q :=
  .one hP fun c hc => h c _ _ hc rfl rfl

theorem Ensures.update {P : Assertion σ} {path : PathId} {payload : Json.Value}
    {headers : Json.Fields} {Q : Except FetchFailure (Option Item) → Assertion σ} (hP : T.Lasts P)
    (h : ∀ c r s, P c → (b.update path payload headers c.world.backend).1.value = r →
      (b.update path payload headers c.world.backend).2 = s →
      T.owed c (T.after c (.update path payload headers) r { c.world with backend := s }) ∧
        Q r (T.after c (.update path payload headers) r { c.world with backend := s })) :
    T.Ensures P (Plan.one (.update path payload headers)) Q :=
  .one hP fun c hc => h c _ _ hc rfl rfl

theorem Ensures.dispatch {P : Assertion σ} {d : Delivery} {Q : Except String Unit → Assertion σ}
    (hP : T.Lasts P)
    (hrefused : ∀ c reason, P c →
      T.owed c (T.after c (.dispatch d) (.error reason) { c.world with sink := c.world.sink.noted }) ∧
        Q (.error reason)
          (T.after c (.dispatch d) (.error reason) { c.world with sink := c.world.sink.noted }))
    (haccepted : ∀ c, P c →
      T.owed c (T.after c (.dispatch d) (.ok ()) { c.world with sink := c.world.sink.keep d }) ∧
        Q (.ok ())
          (T.after c (.dispatch d) (.ok ()) { c.world with sink := c.world.sink.keep d })) :
    T.Ensures P (Plan.one (.dispatch d)) Q := by
  refine .one hP fun c hc => ?_
  simp only [perform, Chronicle.perform, World.perform, Sink.accept]
  cases c.world.sink.refusal d with
  | some reason => exact hrefused c reason hc
  | none => exact haccepted c hc

theorem Ensures.record {P : Assertion σ} {who : Identity} {id : String} {Q : Unit → Assertion σ}
    (hP : T.Lasts P)
    (h : ∀ c, P c →
      T.owed c (T.after c (.record who id) () { c.world with history := c.world.history.record who id }) ∧
        Q () (T.after c (.record who id) ()
          { c.world with history := c.world.history.record who id })) :
    T.Ensures P (Plan.one (.record who id)) Q := .one hP h

theorem Calm.one {P : Assertion σ} (hP : T.Calm P) (action : Action) (h : action.IsAside) :
    T.Ensures P (Plan.one action) fun _ => P := .one hP.lasts fun c hc => hP.aside c action h hc

end Terms

/-! ## Plans of like actions -/

/-- All actions of a plan are such, whatever is replied. -/
def Plan.Only (allowed : Action → Prop) : Plan α → Prop
  | .done _ => True
  | .act action next => allowed action ∧ ∀ reply, Plan.Only allowed (next reply)

variable {allowed : Action → Prop}

theorem Plan.Only.pure (a : α) : Plan.Only allowed (pure a : Plan α) := trivial

theorem Plan.Only.one {action : Action} (h : allowed action) : Plan.Only allowed (Plan.one action) :=
  ⟨h, fun _ => trivial⟩

theorem Plan.Only.bind {f : α → Plan β} {plan : Plan α} (h : plan.Only allowed)
    (hf : ∀ a, (f a).Only allowed) : (plan >>= f).Only allowed := by
  induction plan with
  | done a => exact hf a
  | act action next ih =>
    obtain ⟨haction, hnext⟩ := h
    exact ⟨haction, fun reply => ih reply (hnext reply)⟩

/-- What each of its actions keeps, a plan keeps. -/
theorem Plan.Only.ensures {T : Terms p b} {P : Assertion σ} {plan : Plan α} (h : plan.Only allowed)
    (hlasts : T.Lasts P)
    (hkept : ∀ c action, allowed action → P c →
      T.owed c (T.perform c action).2 ∧ P (T.perform c action).2) :
    T.Ensures P plan fun _ => P := by
  induction plan with
  | done a => exact fun _ hc => hc
  | act action next ih =>
    intro c hc c' hrely
    obtain ⟨haction, hnext⟩ := h
    obtain ⟨howed, hP⟩ := hkept c' action haction (hlasts c c' hc hrely)
    exact ⟨howed, ih _ (hnext _) _ hP⟩

/-! ## Plans side by side -/

/-- What is to be shown of operations side by side, each on terms of its own: whatever one of them owes
the others may rely on, and they may rely on what the world does by itself; each operation that begins
leads to its `post`. `K` is what holds at all times. -/
structure Beside (R : Rules p b) (rely owed : Nat → Operation → Chronicle σ → Chronicle σ → Prop)
    (post : Nat → Operation → Outcome → Assertion σ) (K : Assertion σ) : Prop where
  refl : ∀ i op c, K c → rely i op c c
  trans : ∀ i op c c' c'', rely i op c c' → rely i op c' c'' → rely i op c c''
  lasts : ∀ i op o c c', post i op o c → rely i op c c' → post i op o c'
  kept : ∀ i op c c', K c → owed i op c c' → K c'
  others : ∀ i j op op' c c', i ≠ j → K c → owed i op c c' → rely j op' c c'
  worldK : ∀ c w, K c → Meanwhile R.moves c.world w → K { c with world := w }
  world : ∀ i op c w, K c → Meanwhile R.moves c.world w → rely i op c { c with world := w }
  begin : ∀ c op, R.begins c op → c.Numbered → K c.toChronicle →
    (⟨c.tasks.length, op, rely c.tasks.length op, owed c.tasks.length op⟩ : Terms p b).Leads
      (post c.tasks.length op) (op.plan p) c.toChronicle

/-- `K` holds, and every operation that has begun leads to its `post`. -/
structure Beside.Good (p : Poller) (b : Backend σ)
    (rely owed : Nat → Operation → Chronicle σ → Chronicle σ → Prop)
    (post : Nat → Operation → Outcome → Assertion σ) (K : Assertion σ) (c : Course σ) : Prop where
  always : K c.toChronicle
  numbered : c.Numbered
  underway : ∀ i t, c.tasks[i]? = some t →
    (⟨i, t.op, rely i t.op, owed i t.op⟩ : Terms p b).Leads (post i t.op) t.plan c.toChronicle

section Beside

variable {R : Rules p b} {rely owed : Nat → Operation → Chronicle σ → Chronicle σ → Prop}
variable {post : Nat → Operation → Outcome → Assertion σ} {K : Assertion σ}

theorem Beside.step (h : Beside R rely owed post K) {c c' : Course σ} (hs : R.Step c c')
    (hc : Beside.Good p b rely owed post K c) : Beside.Good p b rely owed post K c' := by
  cases hs with
  | @begin op hop =>
    refine ⟨hc.always, ?_, ?_⟩
    · intro e he
      have := hc.numbered e he
      simp only [Course.begin, List.length_append, List.length_singleton]
      omega
    · intro i t ht
      obtain ht | ⟨rfl, rfl⟩ := Course.task_begin ht
      · exact hc.underway i t ht
      · exact h.begin c op hop hc.numbered hc.always
  | @act i op action next hi =>
    obtain ⟨howed, hnext⟩ := hc.underway i _ hi c.toChronicle (h.refl i op _ hc.always)
    refine ⟨h.kept i op _ _ hc.always howed, ?_, ?_⟩
    · intro e he
      rw [List.length_set]
      obtain rfl | he := List.mem_cons.mp he
      · exact (List.getElem?_eq_some_iff.mp hi).1
      · exact hc.numbered e he
    · intro j t ht
      -- who acts goes on with its plan; to the others it is something they rely on
      obtain ⟨rfl, rfl⟩ | ⟨hj, ht⟩ := Course.task_set ht
      · exact hnext
      · have hrely := h.others i j op t.op _ _ (Ne.symm hj) hc.always howed
        exact (hc.underway j t ht).later (h.trans j t.op) (h.lasts j t.op) hrely
  | meanwhile hw =>
    refine ⟨h.worldK _ _ hc.always hw, hc.numbered, ?_⟩
    intro i t ht
    have hrely := h.world i t.op _ _ hc.always hw
    exact (hc.underway i t ht).later (h.trans i t.op) (h.lasts i t.op) hrely

theorem Beside.holds (h : Beside R rely owed post K) {c : Course σ} {w : World σ}
    (hl : R.Later { world := w } c) (hK : K { world := w }) :
    Beside.Good p b rely owed post K c := by
  induction hl with
  | refl => exact ⟨hK, by simp [Course.Numbered], by simp⟩
  | tail _ hs ih => exact h.step hs ih

end Beside

/-- What is to be shown of operations side by side: each owes what every other may rely on, the world
by itself changes in no other way, and each operation that begins leads to its end. `K` is what holds
at all times. -/
structure Together (R : Rules p b) (rel : Chronicle σ → Chronicle σ → Prop) (K : Assertion σ) :
    Prop where
  refl : ∀ c, K c → rel c c
  trans : ∀ c c' c'', rel c c' → rel c' c'' → rel c c''
  kept : ∀ c c', rel c c' → K c'
  world : ∀ c w, K c → Meanwhile R.moves c.world w → rel c { c with world := w }
  begin : ∀ c op, R.begins c op → K c.toChronicle →
    (⟨c.tasks.length, op, rel, rel⟩ : Terms p b).Leads (fun _ _ => True) (op.plan p) c.toChronicle

/-- The property holds, and every operation that has begun leads to its end. -/
def Together.Good (p : Poller) (b : Backend σ) (rel : Chronicle σ → Chronicle σ → Prop)
    (K : Assertion σ) (c : Course σ) : Prop :=
  K c.toChronicle ∧ ∀ i t, c.tasks[i]? = some t →
    (⟨i, t.op, rel, rel⟩ : Terms p b).Leads (fun _ _ => True) t.plan c.toChronicle

/-- Terms that are the same for all. -/
theorem Together.beside {R : Rules p b} {rel : Chronicle σ → Chronicle σ → Prop} {K : Assertion σ}
    (h : Together R rel K) :
    Beside R (fun _ _ => rel) (fun _ _ => rel) (fun _ _ _ _ => True) K where
  refl _ _ := h.refl
  trans _ _ := h.trans
  lasts _ _ _ _ _ _ _ := trivial
  kept _ _ c c' _ hrel := h.kept c c' hrel
  others _ _ _ _ _ _ _ _ hrel := hrel
  worldK c w hK hw := h.kept c _ (h.world c w hK hw)
  world _ _ := h.world
  begin c op hop _ := h.begin c op hop

theorem Together.holds {R : Rules p b} {rel : Chronicle σ → Chronicle σ → Prop} {K : Assertion σ}
    (h : Together R rel K) {c : Course σ} {w : World σ} (hl : R.Later { world := w } c)
    (hK : K { world := w }) : Together.Good p b rel K c := by
  have hgood := h.beside.holds hl hK
  exact ⟨hgood.always, hgood.underway⟩

/-! ## Plans in turn -/

/-- What the world does by itself in any time. -/
def Rules.Passes (R : Rules p b) : Chronicle σ → Chronicle σ → Prop :=
  Relation.ReflTransGen fun c c' => ∃ w, Meanwhile R.moves c.world w ∧ c' = { c with world := w }

/-- The terms of an operation that has the turn. -/
abbrev Rules.turn (R : Rules p b) (owed : Nat → Operation → Chronicle σ → Chronicle σ → Prop)
    (i : Nat) (op : Operation) : Terms p b := ⟨i, op, R.Passes, owed i op⟩

/-- What lasts through one change of the world by itself lasts. -/
theorem Rules.lasts_turn {R : Rules p b}
    {owed : Nat → Operation → Chronicle σ → Chronicle σ → Prop} {i : Nat} {op : Operation}
    {P : Assertion σ}
    (h : ∀ c w, P c → Meanwhile R.moves c.world w → P { c with world := w }) :
    (R.turn owed i op).Lasts P := by
  intro c c' hc hp
  induction hp with
  | refl => exact hc
  | tail _ hw ih =>
    obtain ⟨w, hw, rfl⟩ := hw
    exact h _ w ih hw

/-- What is to be shown of operations in turn: whatever is owed keeps `K`, each operation that begins
where `J` holds leads to its `post`, and from there `J` holds for the next. -/
structure InTurn (R : Rules p b) (owed : Nat → Operation → Chronicle σ → Chronicle σ → Prop)
    (post : Nat → Operation → Outcome → Assertion σ) (J K : Assertion σ) : Prop where
  turns : ∀ c op, R.begins c op → c.Idle
  worldJ : ∀ c w, J c → Meanwhile R.moves c.world w → J { c with world := w }
  worldK : ∀ c w, K c → Meanwhile R.moves c.world w → K { c with world := w }
  worldPost : ∀ i op o c w, post i op o c → Meanwhile R.moves c.world w →
    post i op o { c with world := w }
  kept : ∀ i op c c', owed i op c c' → K c → K c'
  begin : ∀ c op, R.begins c op → c.Numbered → J c.toChronicle →
    (R.turn owed c.tasks.length op).Leads (post c.tasks.length op) (op.plan p) c.toChronicle
  done : ∀ i op o c, post i op o c → J c

/-- `K` holds; every operation but the last is done, and the last leads to its `post`. -/
structure InTurn.Good (R : Rules p b) (owed : Nat → Operation → Chronicle σ → Chronicle σ → Prop)
    (post : Nat → Operation → Outcome → Assertion σ) (J K : Assertion σ) (c : Course σ) : Prop where
  always : K c.toChronicle
  numbered : c.Numbered
  underway : c.tasks = [] ∧ J c.toChronicle ∨
    ∃ earlier t, c.tasks = earlier ++ [t] ∧ (∀ e ∈ earlier, e.Done) ∧
      (R.turn owed earlier.length t.op).Leads (post earlier.length t.op) t.plan c.toChronicle

section InTurn

variable {R : Rules p b} {owed : Nat → Operation → Chronicle σ → Chronicle σ → Prop}
variable {post : Nat → Operation → Outcome → Assertion σ} {J K : Assertion σ}

/-- Whoever acts has the turn, owes what it does and goes on to its end. -/
theorem InTurn.Good.act {c : Course σ} (hc : InTurn.Good R owed post J K c) {i : Nat}
    {op : Operation} {action : Action} {next : action.Reply → Plan Outcome}
    (hi : c.tasks[i]? = some ⟨op, .act action next⟩) :
    ∃ earlier, c.tasks = earlier ++ [⟨op, .act action next⟩] ∧ earlier.length = i ∧
      (∀ e ∈ earlier, e.Done) ∧ owed i op c.toChronicle (c.perform p b i op action).2 ∧
      (R.turn owed i op).Leads (post i op) (next (c.perform p b i op action).1)
        (c.perform p b i op action).2 := by
  obtain ⟨hnil, -⟩ | ⟨earlier, t, htasks, hdone, hleads⟩ := hc.underway
  · simp [hnil] at hi
  rw [htasks, List.getElem?_append] at hi
  split at hi
  · obtain ⟨outcome, ho⟩ := hdone _ (List.mem_of_getElem? hi)
    cases ho
  · rcases hn : i - earlier.length with _ | n
    · simp only [hn, List.getElem?_cons_zero, Option.some.injEq] at hi
      subst hi
      obtain rfl : earlier.length = i := by omega
      obtain ⟨howed, hnext⟩ := hleads c.toChronicle .refl
      exact ⟨earlier, htasks, rfl, hdone, howed, hnext⟩
    · simp [hn] at hi

/-- When no operation is under way, `J` holds. -/
theorem InTurn.Good.idle (h : InTurn R owed post J K) {c : Course σ}
    (hc : InTurn.Good R owed post J K c) (hidle : c.Idle) : J c.toChronicle := by
  obtain ⟨-, hJ⟩ | ⟨earlier, t, htasks, -, hleads⟩ := hc.underway
  · exact hJ
  · obtain ⟨outcome, ho⟩ := hidle t (by simp [htasks])
    rw [ho] at hleads
    exact h.done _ _ _ _ hleads

/-- What the last operation was to come to, once it is done. -/
theorem InTurn.Good.last {c : Course σ} (hc : InTurn.Good R owed post J K c) {earlier : List Task}
    {op : Operation} {outcome : Outcome} (htasks : c.tasks = earlier ++ [⟨op, .done outcome⟩]) :
    post earlier.length op outcome c.toChronicle := by
  obtain ⟨hnil, -⟩ | ⟨earlier', t, htasks', -, hleads⟩ := hc.underway
  · simp [hnil] at htasks
  · rw [htasks] at htasks'
    obtain ⟨rfl, ht⟩ := List.append_inj' htasks' rfl
    cases ht
    exact hleads

theorem InTurn.step (h : InTurn R owed post J K) {c c' : Course σ} (hs : R.Step c c')
    (hc : InTurn.Good R owed post J K c) : InTurn.Good R owed post J K c' := by
  cases hs with
  | @begin op hop =>
    have hidle := h.turns c op hop
    refine ⟨hc.always, fun e he => ?_, .inr ⟨c.tasks, ⟨op, op.plan p⟩, rfl, hidle, ?_⟩⟩
    · have := hc.numbered e he
      simp only [Course.begin, List.length_append, List.length_singleton]
      omega
    · exact h.begin c op hop hc.numbered (InTurn.Good.idle h hc hidle)
  | @act i op action next hi =>
    obtain ⟨earlier, htasks, rfl, hdone, howed, hnext⟩ := hc.act hi
    refine ⟨h.kept _ _ _ _ howed hc.always, fun e he => ?_,
      .inr ⟨earlier, ⟨op, next _⟩, ?_, hdone, hnext⟩⟩
    · simp only [List.length_set]
      obtain rfl | he := List.mem_cons.mp he
      · simp [htasks]
      · exact hc.numbered e he
    · simp [htasks]
  | meanwhile hw =>
    refine ⟨h.worldK _ _ hc.always hw, hc.numbered, ?_⟩
    obtain ⟨hnil, hJ⟩ | ⟨earlier, t, htasks, hdone, hleads⟩ := hc.underway
    · exact .inl ⟨hnil, h.worldJ _ _ hJ hw⟩
    · have hlasts : ∀ o, (R.turn owed earlier.length t.op).Lasts (post earlier.length t.op o) :=
        fun o => R.lasts_turn (h.worldPost earlier.length t.op o)
      exact .inr ⟨earlier, t, htasks, hdone,
        hleads.later (fun _ _ _ => Relation.ReflTransGen.trans) hlasts (.single ⟨_, hw, rfl⟩)⟩

theorem InTurn.holds (h : InTurn R owed post J K) {c : Course σ} {w : World σ}
    (hl : R.Later { world := w } c) (hJ : J { world := w }) (hK : K { world := w }) :
    InTurn.Good R owed post J K c := by
  induction hl with
  | refl => exact ⟨hK, by simp [Course.Numbered], .inl ⟨rfl, hJ⟩⟩
  | tail _ hs ih => exact h.step hs ih

end InTurn

end FeedPoller
