import FeedPoller.Backend.Script
import FeedPoller.Proofs.Bookkeeping

/-! What a poll leaves out. When operations take turns, a poll offers an item that it read just when its
id is not among the last ids accepted under its identity, however the batches overlap or repeat; it stops
at the first refusal. So between two acceptances of one id, the later one from a poll, there are as many
others as are remembered. -/

namespace FeedPoller

variable {σ : Type} {p : Poller} {b : Backend σ}

/-! ## What came of a call -/

/-- A read or an update and the deliveries that followed it, the first one first. -/
structure Exchange (σ : Type) where
  call : Entry σ
  offers : List (Entry σ) := []

def Exchange.followedBy (x : Exchange σ) (offers : List (Entry σ)) : Exchange σ :=
  { x with offers := x.offers ++ offers }

/-- An entry is a new call, or belongs to the newest one, or is neither a call nor a delivery. -/
def Exchange.extend (xs : List (Exchange σ)) (e : Entry σ) : List (Exchange σ) :=
  match e.action, xs with
  | .read .., xs | .update .., xs => { call := e } :: xs
  | .dispatch _, x :: xs => x.followedBy [e] :: xs
  | _, xs => xs

/-- The exchanges in a log, the newest one first. -/
def exchanges : List (Entry σ) → List (Exchange σ)
  | [] => []
  | e :: past => Exchange.extend (exchanges past) e

/-- How a poll goes through the items that it read, when these ids are the accepted ones: it leaves out
an item whose id is among the last of them, and offers any other, up to the first that is refused. -/
inductive Screened (p : Poller) (i : Nat) (op : Operation) :
    List String → List Item → List (Entry σ) → Prop
  | nil {accepted : List String} : Screened p i op accepted [] []
  | leftOut {accepted : List String} {item : Item} {rest : List Item} {offers : List (Entry σ)} :
      item.id ∈ accepted.rtake p.settings.maxHistory → Screened p i op accepted rest offers →
      Screened p i op accepted (item :: rest) offers
  | accepted {accepted : List String} {w : World σ} {item : Item} {rest : List Item}
      {offers : List (Entry σ)} :
      item.id ∉ accepted.rtake p.settings.maxHistory →
      idsUnder (op.identity p) w.acceptances = accepted →
      Screened p i op (accepted ++ [item.id]) rest offers →
      Screened p i op accepted (item :: rest)
        (⟨i, op, w, .dispatch (.of item (op.credentials p)), .ok ()⟩ :: offers)
  | refused {accepted : List String} {w : World σ} {item : Item} {rest : List Item}
      {reason : String} :
      item.id ∉ accepted.rtake p.settings.maxHistory →
      idsUnder (op.identity p) w.acceptances = accepted →
      Screened p i op accepted (item :: rest)
        [⟨i, op, w, .dispatch (.of item (op.credentials p)), .error reason⟩]

/-- What is required of a read: a poll screens the items that it gave, and offers nothing if it
failed. What an update gave is not screened. -/
def Exchange.Fair (p : Poller) (x : Exchange σ) : Prop :=
  match x.call with
  | ⟨i, op, w, .read .., .ok items⟩ =>
    Screened p i op (idsUnder (op.identity p) w.acceptances) items x.offers
  | ⟨_, _, _, .read .., .error _⟩ => x.offers = []
  | _ => True

/-- What was accepted, if the entry is a delivery that was. -/
def Entry.accepted (e : Entry σ) : Option Delivery :=
  match e with
  | ⟨_, _, _, .dispatch d, .ok ()⟩ => some d
  | _ => none

/-- What came of the call, among what was accepted under an identity: this id, at this place. -/
def Exchange.Gave (x : Exchange σ) (who : Identity) (place : Nat) (id : String) : Prop :=
  ∃ e ∈ x.offers, ∃ d, e.accepted = some d ∧ d.identity = who ∧ d.item.id = id ∧
    (idsUnder who e.world.acceptances).length = place

/-- Whether it is a poll. -/
def Exchange.IsPoll (x : Exchange σ) : Prop :=
  ∃ path cursor params, x.call.action = .read path cursor params

/-! ## Stages of an operation -/

/-- Whether an entry is a delivery, accepted or not. -/
def Entry.IsDelivery (e : Entry σ) : Prop := ∃ d, e.action = .dispatch d

/-- All deliveries came of calls. -/
def Traced (c : Chronicle σ) : Prop :=
  ∀ e ∈ c.log, e.IsDelivery → ∃ x ∈ exchanges c.log, e ∈ x.offers

/-- The history agrees with what was accepted, but for what is due. -/
structure Straight (p : Poller) (due : List (Identity × String)) (c : Chronicle σ) : Prop where
  ledger : Ledger p c
  owing : Owing due c
  traced : Traced c

/-- Before and after an exchange. -/
structure Square (p : Poller) (c : Chronicle σ) : Prop where
  straight : Straight p [] c
  fair : ∀ x ∈ exchanges c.log, x.Fair p

/-- Within an exchange, which is a fair one if what follows is as it should be. -/
structure Midway (p : Poller) (due : List (Identity × String)) (next : List (Entry σ) → Prop)
    (c : Chronicle σ) : Prop where
  straight : Straight p due c
  fair : ∃ x earlier, exchanges c.log = x :: earlier ∧ (∀ y ∈ earlier, y.Fair p) ∧
    ∀ offers, next offers → (x.followedBy offers).Fair p

/-- While the items that were read are screened. -/
def Screening (p : Poller) (i : Nat) (op : Operation) (due : List (Identity × String))
    (rest : List Item) : Assertion σ := fun c =>
  Midway p due (Screened p i op (idsUnder (op.identity p) c.world.acceptances) rest) c

theorem Straight.snapshot {c : Chronicle σ} (h : Straight p [] c) (who : Identity) :
    c.world.history.snapshot who =
      (idsUnder who c.world.acceptances).rtake p.settings.maxHistory := by
  rw [h.ledger.tail, ← h.owing, List.append_nil]

theorem Midway.mono {due : List (Identity × String)} {next next' : List (Entry σ) → Prop}
    {c : Chronicle σ} (h : Midway p due next c) (hnext : ∀ offers, next' offers → next offers) :
    Midway p due next' c := by
  obtain ⟨x, earlier, hx, hearlier, hfair⟩ := h.fair
  exact ⟨h.straight, x, earlier, hx, hearlier, fun offers ho => hfair offers (hnext offers ho)⟩

/-- When nothing is to follow, the exchange is over. -/
theorem Midway.square {next : List (Entry σ) → Prop} {c : Chronicle σ} (h : Midway p [] next c)
    (hnext : next []) : Square p c := by
  obtain ⟨x, earlier, hx, hearlier, hfair⟩ := h.fair
  refine ⟨h.straight, ?_⟩
  rw [hx]
  refine List.forall_mem_cons.mpr ⟨?_, hearlier⟩
  have hnone := hfair [] hnext
  rwa [Exchange.followedBy, List.append_nil] at hnone

/-! ## What leaves a stage as it is -/

/-- Actions that are neither calls of a path nor deliveries nor records. -/
def Action.IsSilent : Action → Prop
  | .read .. | .update .. | .dispatch _ | .record .. => False
  | _ => True

/-- Calls of a path for what it gives. -/
def Action.IsCall : Action → Prop
  | .read .. | .update .. => True
  | _ => False

theorem Action.IsCall.ne_dispatch {action : Action} (h : action.IsCall) (d : Delivery) :
    action ≠ .dispatch d := by
  rintro rfl
  exact h.elim

theorem Action.IsCall.ne_record {action : Action} (h : action.IsCall) (who : Identity)
    (id : String) : action ≠ .record who id := by
  rintro rfl
  exact h.elim

theorem Action.IsAside.isSilent {action : Action} (h : action.IsAside) : action.IsSilent := by
  cases action with
  | cursor | read | update | seen | dispatch | record => exact h.elim
  | _ => trivial

/-- Nothing was accepted, remembered or asked for in between. -/
structure Alike (c c' : Chronicle σ) : Prop where
  history : c'.world.history = c.world.history
  accepted : c'.world.sink.accepted = c.world.sink.accepted
  records : c'.records = c.records
  exchanges : exchanges c'.log = exchanges c.log
  deliveries : ∀ e ∈ c'.log, e.IsDelivery → e ∈ c.log

def KeptAlike (P : Assertion σ) : Prop := ∀ c c', P c → Alike c c' → P c'

theorem Alike.meanwhile {c : Chronicle σ} {w : World σ}
    (hw : Meanwhile (inSequence p b).moves c.world w) : Alike c { c with world := w } := by
  obtain ⟨hhistory, hsink, -⟩ := hw.apart
  exact ⟨hhistory, congrArg Sink.accepted hsink, rfl, rfl, fun _ he _ => he⟩

theorem Alike.silent (T : Terms p b) (c : Chronicle σ) (action : Action) (h : action.IsSilent) :
    Alike c (T.perform c action).2 := by
  cases action with
  | read | update | dispatch | record => exact h.elim
  | _ =>
    refine ⟨rfl, rfl, (Chronicle.records_cons ..).trans (List.append_nil _), rfl, ?_⟩
    rintro e he ⟨d, hd⟩
    rcases List.mem_cons.mp he with rfl | he
    · cases hd
    · exact he

theorem Alike.acceptances {c c' : Chronicle σ} (h : Alike c c') :
    c'.world.acceptances = c.world.acceptances := World.acceptances_of_same h.accepted

theorem Straight.alike {due : List (Identity × String)} : KeptAlike (Straight (σ := σ) p due) := by
  intro c c' h ha
  refine ⟨h.ledger.of_same ha.history ha.records, h.owing.of_same ha.records ha.accepted, ?_⟩
  intro e he hd
  rw [ha.exchanges]
  exact h.traced e (ha.deliveries e he hd) hd

theorem Square.alike : KeptAlike (Square (σ := σ) p) := by
  intro c c' h ha
  refine ⟨Straight.alike c c' h.straight ha, ?_⟩
  rw [ha.exchanges]
  exact h.fair

theorem Midway.alike {due : List (Identity × String)} {next : List (Entry σ) → Prop} :
    KeptAlike (Midway p due next) := by
  intro c c' h ha
  refine ⟨Straight.alike c c' h.straight ha, ?_⟩
  rw [ha.exchanges]
  exact h.fair

theorem Screening.alike {i : Nat} {op : Operation} {due : List (Identity × String)}
    {rest : List Item} : KeptAlike (Screening (σ := σ) p i op due rest) := by
  intro c c' h ha
  rw [Screening, ha.acceptances]
  exact Midway.alike c c' h ha

/-! ## Steps of an exchange -/

/-- The terms of the operation that has the turn; what it does is told by the stages alone. -/
abbrev screening (p : Poller) (b : Backend σ) (i : Nat) (op : Operation) : Terms p b :=
  (inSequence p b).turn (fun _ _ _ _ => True) i op

open Terms

variable {i : Nat} {op : Operation}

theorem KeptAlike.lasts {P : Assertion σ} (hP : KeptAlike P) : (screening p b i op).Lasts P :=
  Rules.lasts_turn fun c _ h hw => hP c _ h (.meanwhile hw)

theorem KeptAlike.silent {P : Assertion σ} (hP : KeptAlike P) {action : Action}
    (h : action.IsSilent) : (screening p b i op).Ensures P (Plan.one action) fun _ => P := by
  refine .one hP.lasts ?_
  intro c hc
  exact ⟨trivial, hP c _ hc (.silent _ c _ h)⟩

theorem KeptAlike.calm {P : Assertion σ} (hP : KeptAlike P) : (screening p b i op).Calm P where
  lasts := hP.lasts
  aside c _ ha h := ⟨trivial, hP c _ h (.silent _ c _ ha.isSilent)⟩

/-- A call is the beginning of another exchange. -/
theorem Square.call {c : Chronicle σ} (h : Square p c) (T : Terms p b) (action : Action)
    (haction : action.IsCall) (reply : action.Reply) (s : σ) (next : List (Entry σ) → Prop)
    (hnext : ∀ offers, next offers →
      (⟨⟨T.task, T.op, c.world, action, reply⟩, offers⟩ : Exchange σ).Fair p) :
    Midway p [] next (T.after c action reply { c.world with backend := s }) := by
  have hcall : exchanges (T.after c action reply { c.world with backend := s }).log =
      { call := ⟨T.task, T.op, c.world, action, reply⟩ } :: exchanges c.log := by
    cases action with
    | read | update => rfl
    | _ => exact haction.elim
  have hrecords : (T.after c action reply { c.world with backend := s }).records = c.records := by
    refine (Chronicle.records_cons ..).trans ?_
    rw [Entry.recorded_of_ne haction.ne_record]
    exact List.append_nil _
  have htraced : Traced (T.after c action reply { c.world with backend := s }) := by
    rintro e he ⟨d, hd⟩
    rw [hcall]
    rcases List.mem_cons.mp he with rfl | he
    · exact absurd hd (haction.ne_dispatch d)
    · obtain ⟨x, hx, hoffer⟩ := h.straight.traced e he ⟨d, hd⟩
      exact ⟨x, List.mem_cons_of_mem _ hx, hoffer⟩
  refine ⟨⟨h.straight.ledger.of_same rfl hrecords, h.straight.owing.of_same hrecords rfl, htraced⟩,
    _, _, hcall, h.fair, ?_⟩
  intro offers ho
  exact hnext offers ho

/-- A delivery is the next one of the exchange. -/
theorem Midway.delivery {due due' : List (Identity × String)} {next : List (Entry σ) → Prop}
    {c : Chronicle σ} (h : Midway p due next c) {e : Entry σ} (he : e.IsDelivery) {w : World σ}
    (hledger : Ledger p ⟨w, e :: c.log⟩) (howing : Owing due' ⟨w, e :: c.log⟩) :
    Midway p due' (fun offers => next (e :: offers)) ⟨w, e :: c.log⟩ := by
  obtain ⟨x, earlier, hx, hearlier, hfair⟩ := h.fair
  have hnow : exchanges (e :: c.log) = x.followedBy [e] :: earlier := by
    obtain ⟨d, hd⟩ := he
    simp only [exchanges, Exchange.extend, hx, hd]
  have htraced : Traced (⟨w, e :: c.log⟩ : Chronicle σ) := by
    intro e' he' hd
    simp only [hnow]
    rcases List.mem_cons.mp he' with rfl | he'
    · exact ⟨_, List.mem_cons_self .., List.mem_append_right _ (List.mem_singleton_self _)⟩
    · obtain ⟨y, hy, hoffer⟩ := h.straight.traced e' he' hd
      rw [hx] at hy
      rcases List.mem_cons.mp hy with rfl | hy
      · exact ⟨_, List.mem_cons_self .., List.mem_append_left _ hoffer⟩
      · exact ⟨y, List.mem_cons_of_mem _ hy, hoffer⟩
  refine ⟨⟨hledger, howing, htraced⟩, _, _, hnow, hearlier, ?_⟩
  intro offers ho
  have hmore := hfair (e :: offers) ho
  rwa [Exchange.followedBy, Exchange.followedBy, List.append_assoc]

theorem Midway.refused {due : List (Identity × String)} {next : List (Entry σ) → Prop}
    {c : Chronicle σ} (h : Midway p due next c) (T : Terms p b) (d : Delivery) (reason : String) :
    Midway p due
      (fun offers => next (⟨T.task, T.op, c.world, .dispatch d, .error reason⟩ :: offers))
      (T.after c (.dispatch d) (.error reason) { c.world with sink := c.world.sink.noted }) := by
  have hrecords : (T.after c (.dispatch d) (.error reason)
      { c.world with sink := c.world.sink.noted }).records = c.records :=
    (Chronicle.records_cons ..).trans (List.append_nil _)
  exact h.delivery ⟨d, rfl⟩ (h.straight.ledger.of_same rfl hrecords)
    (h.straight.owing.refused T d reason)

theorem Midway.accepted {next : List (Entry σ) → Prop} {c : Chronicle σ} (h : Midway p [] next c)
    (T : Terms p b) (item : Item) (creds : CredentialSet) :
    Midway p [(creds.identity, item.id)]
      (fun offers => next (⟨T.task, T.op, c.world, .dispatch (.of item creds), .ok ()⟩ :: offers))
      (T.after c (.dispatch (.of item creds)) (.ok ())
        { c.world with sink := c.world.sink.keep (.of item creds) }) := by
  have hrecords : (T.after c (.dispatch (.of item creds)) (.ok ())
      { c.world with sink := c.world.sink.keep (.of item creds) }).records = c.records :=
    (Chronicle.records_cons ..).trans (List.append_nil _)
  exact h.delivery ⟨_, rfl⟩ (h.straight.ledger.of_same rfl hrecords)
    (h.straight.owing.accepted T item creds)

theorem Midway.recorded (hpos : 1 ≤ p.settings.maxHistory) {who : Identity} {id : String}
    {next : List (Entry σ) → Prop} {c : Chronicle σ} (h : Midway p [(who, id)] next c)
    (T : Terms p b) :
    Midway p [] next (T.after c (.record who id) ()
      { c.world with history := c.world.history.record who id }) := by
  have hledger : Ledger p (T.after c (.record who id) ()
      { c.world with history := c.world.history.record who id }) :=
    h.straight.ledger.perform (b := b) hpos T.task T.op (.record who id)
  refine ⟨⟨hledger, h.straight.owing.recorded T, ?_⟩, h.fair⟩
  rintro e he ⟨d, hd⟩
  rcases List.mem_cons.mp he with rfl | he
  · cases hd
  · exact h.straight.traced e he ⟨d, hd⟩

/-! ## Operations -/

/-- While an item is about to be offered. -/
def Unseen (p : Poller) (i : Nat) (op : Operation) (item : Item) (rest : List Item) : Assertion σ :=
  fun c => Screening p i op [] (item :: rest) c ∧
    item.id ∉ (idsUnder (op.identity p) c.world.acceptances).rtake p.settings.maxHistory

theorem Unseen.alike {item : Item} {rest : List Item} :
    KeptAlike (Unseen (σ := σ) p i op item rest) := by
  intro c c' h ha
  refine ⟨Screening.alike c c' h.1 ha, ?_⟩
  rw [ha.acceptances]
  exact h.2

theorem isRepeated_screening (hskip : p.settings.skipDuplicates = true) (item : Item)
    (rest : List Item) :
    (screening p b i op).Ensures (Screening p i op [] (item :: rest))
      (p.isRepeated (op.identity p) item.id) fun repeated => if repeated = true then
        Screening p i op [] rest else Unseen p i op item rest := by
  rw [Poller.isRepeated, if_pos hskip]
  refine .seen Screening.alike.lasts ?_
  intro c h
  refine ⟨trivial, ?_⟩
  have hsnapshot := h.straight.snapshot (op.identity p)
  have hafter : Screening p i op [] (item :: rest) ((screening p b i op).after c
      (.seen (op.identity p) item.id) (c.world.history.seen (op.identity p) item.id) c.world) :=
    Screening.alike c _ h (.silent (screening p b i op) c (.seen (op.identity p) item.id) trivial)
  split
  · rename_i hseen
    rw [History.seen_iff, hsnapshot] at hseen
    exact Midway.mono hafter fun offers ho => .leftOut hseen ho
  · rename_i hseen
    rw [History.seen_iff, hsnapshot] at hseen
    exact ⟨hafter, hseen⟩

theorem deliver_screening (hpos : 1 ≤ p.settings.maxHistory) (item : Item) (rest : List Item) :
    (screening p b i op).Ensures (Unseen p i op item rest)
      (Poller.deliver (op.identity p) (op.credentials p) item) fun r => match r with
        | .error _ => Square p
        | .ok () => Screening p i op [] rest := by
  refine Poller.deliver_ensures (D := Screening p i op [(op.identity p, item.id)] rest)
    (.dispatch Unseen.alike.lasts ?_ ?_) (.record Screening.alike.lasts ?_)
  · intro c reason h
    refine ⟨trivial, ?_⟩
    have hrefused := Midway.refused h.1 (screening p b i op) (.of item (op.credentials p)) reason
    exact hrefused.square (.refused h.2 rfl)
  · intro c h
    refine ⟨trivial, ?_⟩
    have haccepted := Midway.accepted h.1 (screening p b i op) item (op.credentials p)
    refine haccepted.mono ?_
    intro offers ho
    refine .accepted h.2 rfl ?_
    have hids : idsUnder (op.identity p)
        (World.acceptances { c.world with sink := c.world.sink.keep (.of item (op.credentials p)) }) =
          idsUnder (op.identity p) c.world.acceptances ++ [item.id] := by
      rw [World.acceptances_keep, idsUnder_append]
      simp [idsUnder, Operation.identity]
    rw [← hids]
    exact ho
  · intro c h
    exact ⟨trivial, Midway.recorded hpos h (screening p b i op)⟩

theorem read_screening {path : PathId} {cursor : Option String} {params : Json.Fields} :
    (screening p b i op).Ensures (Square p) (Plan.one (.read path cursor params)) fun r => match r with
      | .error _ => Square p
      | .ok items => Screening p i op [] items := by
  refine .read Square.alike.lasts ?_
  intro c r s h _ _
  refine ⟨trivial, ?_⟩
  match r with
  | .error e =>
    have hfailed := h.call (screening p b i op) (.read path cursor params) trivial (.error e) s (· = [])
      fun _ ho => ho
    exact hfailed.square rfl
  | .ok items =>
    exact h.call (screening p b i op) (.read path cursor params) trivial (.ok items) s _ fun _ ho => ho

theorem poll_screening (hpos : 1 ≤ p.settings.maxHistory) (hskip : p.settings.skipDuplicates = true)
    (path : PathId) (cursor : Option String) (params : Json.Fields) :
    (screening p b i op).Ensures (Square p)
      (p.poll path (op.identity p) cursor params (op.credentials p)) fun _ => Square p := by
  refine Poller.poll_ensures (S := Square p) (R := Screening p i op []) Square.alike.calm
    (fun _ => Square.alike.calm) (read_screening.mono (fun _ h => h) ?_) (fun _ _ h => h) ?_
  · intro r c h
    match r with
    | .error (.rateLimited _) => exact h
    | .error (.fetch _) => exact h
    | .ok _ => exact h
  · intro items
    refine Poller.offer_ensures (R := fun items _ => Screening p i op [] items)
      (O := fun item rest _ => Unseen p i op item rest) ?_
      (fun item rest _ => isRepeated_screening hskip item rest) ?_ items {}
    · intro _ c h
      exact Midway.square h .nil
    · intro item rest _
      refine (deliver_screening hpos item rest).mono (fun _ h => h) ?_
      intro r c h
      match r with
      | .error _ => exact h
      | .ok () => exact h

/-- What an update gives is offered as it is. -/
theorem submit_screening (hpos : 1 ≤ p.settings.maxHistory) (path : PathId)
    (payload : Option Json.Value) (headers : Json.Fields) :
    (screening p b i op).Ensures (Square p)
      (Poller.submit path (op.identity p) payload headers (op.credentials p)) fun _ => Square p := by
  refine Poller.submit_ensures (U := fun _ => Midway p [] fun _ => True) Square.alike.calm
    (fun _ => Square.alike.calm) (fun _ h => h) ?_ ?_
  · intro payload
    have hupdate : (screening p b i op).Ensures (Square p) (Plan.one (.update path payload headers))
        fun _ => Midway p [] fun _ => True := by
      refine .one Square.alike.lasts ?_
      intro c h
      exact ⟨trivial, h.call (screening p b i op) (.update path payload headers) trivial _ _
        (fun _ => True) fun _ _ => trivial⟩
    refine hupdate.mono (fun _ h => h) ?_
    intro r _ h
    match r with
    | .error _ => exact h.square trivial
    | .ok none => exact h.square trivial
    | .ok (some _) => exact h
  · intro item
    refine Poller.deliver_ensures (D := Midway p [(op.identity p, item.id)] fun _ => True)
      (.dispatch Midway.alike.lasts ?_ ?_) (.record Midway.alike.lasts ?_)
    · intro c reason h
      have hrefused := h.refused (screening p b i op) (.of item (op.credentials p)) reason
      exact ⟨trivial, hrefused.square trivial⟩
    · intro c h
      exact ⟨trivial, h.accepted (screening p b i op) item (op.credentials p)⟩
    · intro c h
      exact ⟨trivial, (h.recorded hpos (screening p b i op)).square trivial⟩

theorem plan_screening (hpos : 1 ≤ p.settings.maxHistory) (hskip : p.settings.skipDuplicates = true) :
    (screening p b i op).Ensures (Square p) (op.plan p) fun _ => Square p := by
  have hsquare : (screening p b i op).Calm (Square p) := Square.alike.calm
  refine Poller.parts_ensures hsquare hsquare (fun _ h => h) (Square.alike.silent trivial) ?_ ?_
  · intro path cursor params
    refine (poll_screening hpos hskip path cursor params).mono (fun _ h => h) ?_
    intro r c h
    cases r <;> exact h
  · intro path payload headers
    exact submit_screening hpos path payload headers

theorem inTurn_screening (hpos : 1 ≤ p.settings.maxHistory)
    (hskip : p.settings.skipDuplicates = true) :
    InTurn (inSequence p b) (fun _ _ _ _ => True) (fun _ _ _ => Square p) (Square p)
      (fun _ => True) where
  turns _ _ h := h
  worldJ c _ h hw := Square.alike c _ h (.meanwhile hw)
  worldK _ _ h _ := h
  worldPost _ _ _ c _ h hw := Square.alike c _ h (.meanwhile hw)
  kept _ _ _ _ _ h := h
  begin c _ _ _ h := plan_screening hpos hskip c.toChronicle h
  done _ _ _ _ h := h

/-! ## The window -/

theorem Entry.isDelivery_of_accepted {e : Entry σ} {d : Delivery} (h : e.accepted = some d) :
    e.IsDelivery := by
  obtain ⟨i, op, w, action, reply⟩ := e
  cases action with
  | dispatch d => exact ⟨d, rfl⟩
  | _ => cases h

/-- In any course each acceptance is in the log, and none is ever taken back. -/
structure Accounted (c : Chronicle σ) : Prop where
  kept : ∀ e ∈ c.log, ∀ d, e.accepted = some d →
    e.world.acceptances ++ [(d.identity, d.item.id)] <+: c.world.acceptances
  given : ∀ who (place : Nat) id, (idsUnder who c.world.acceptances)[place]? = some id →
    ∃ e ∈ c.log, ∃ d, e.accepted = some d ∧ d.identity = who ∧ d.item.id = id ∧
      (idsUnder who e.world.acceptances).length = place

theorem Accounted.cons_none {c : Chronicle σ} (h : Accounted c) {e : Entry σ} {w : World σ}
    (he : e.accepted = none) (hw : w.sink.accepted = c.world.sink.accepted) :
    Accounted ⟨w, e :: c.log⟩ := by
  have hsame := World.acceptances_of_same hw
  refine ⟨?_, ?_⟩
  · intro e' he' d hd
    rcases List.mem_cons.mp he' with rfl | he'
    · rw [he] at hd
      cases hd
    · rw [hsame]
      exact h.kept e' he' d hd
  · intro who place id hid
    rw [hsame] at hid
    obtain ⟨e', he', hgave⟩ := h.given who place id hid
    exact ⟨e', List.mem_cons_of_mem _ he', hgave⟩

theorem Accounted.cons_some {c : Chronicle σ} (h : Accounted c) {e : Entry σ} {d : Delivery}
    (he : e.accepted = some d) (hw : e.world = c.world) :
    Accounted ⟨{ c.world with sink := c.world.sink.keep d }, e :: c.log⟩ := by
  have hmore : World.acceptances { c.world with sink := c.world.sink.keep d } =
      c.world.acceptances ++ [(d.identity, d.item.id)] := by
    simp [World.acceptances, Sink.keep]
  refine ⟨?_, ?_⟩
  · intro e' he' d' hd'
    rw [hmore]
    rcases List.mem_cons.mp he' with rfl | he'
    · obtain rfl := Option.some.inj (he.symm.trans hd')
      exact hw ▸ List.prefix_refl _
    · exact (h.kept e' he' d' hd').trans (List.prefix_append ..)
  · intro who place id hid
    rw [hmore, idsUnder_append, List.getElem?_append] at hid
    split at hid
    · obtain ⟨e', he', hgave⟩ := h.given who place id hid
      exact ⟨e', List.mem_cons_of_mem _ he', hgave⟩
    · rename_i hend
      by_cases hwho : d.identity = who
      · have hsingle : idsUnder who [(d.identity, d.item.id)] = [d.item.id] := by
          simp [idsUnder, hwho]
        rw [hsingle, List.getElem?_singleton] at hid
        split at hid
        · rename_i hplace
          refine ⟨e, List.mem_cons_self .., d, he, hwho, Option.some.inj hid, ?_⟩
          rw [hw]
          omega
        · cases hid
      · have hnone : idsUnder who [(d.identity, d.item.id)] = [] := by
          simp [idsUnder, hwho]
        rw [hnone] at hid
        cases hid

theorem Accounted.perform {c : Chronicle σ} (h : Accounted c) (i : Nat) (op : Operation)
    (action : Action) : Accounted (c.perform p b i op action).2 := by
  cases action with
  | dispatch d =>
    have hperform : c.world.perform p b (.dispatch d) =
        (⟨(c.world.sink.accept d).1, none⟩, { c.world with sink := (c.world.sink.accept d).2 }) := rfl
    rw [Chronicle.perform, hperform, Sink.accept]
    cases c.world.sink.refusal d with
    | some reason => exact h.cons_none rfl rfl
    | none => exact h.cons_some rfl rfl
  | _ => exact h.cons_none rfl rfl

theorem accounted_of_reached {R : Rules p b} {rule : Sink.Rule} {s : σ} {c : Course σ}
    (h : R.Reached rule s c) : Accounted c.toChronicle := by
  obtain ⟨w, hw, hl⟩ := h
  obtain ⟨-, backend, rfl⟩ := World.init_eq_ok hw
  induction hl with
  | refl => exact ⟨by simp, by simp [World.acceptances, idsUnder]⟩
  | tail _ hs ih =>
    cases hs with
    | begin => exact ih
    | act => exact ih.perform ..
    | meanwhile hw =>
      have hsame := World.acceptances_of_same (congrArg Sink.accepted hw.apart.2.1)
      exact ⟨hsame ▸ ih.kept, hsame ▸ ih.given⟩

/-- What is not in the window on the end of a list is so far from the end. -/
theorem lt_of_not_mem_rtake {n i : Nat} {ids : List String} {id : String} (h : id ∉ ids.rtake n)
    (hi : ids[i]? = some id) : i + n < ids.length := by
  have hlt := (List.getElem?_eq_some_iff.mp hi).1
  by_cases hfar : i + n < ids.length
  · exact hfar
  · refine absurd (List.mem_of_getElem? (i := i - (ids.length - n)) ?_) h
    rw [List.rtake, List.getElem?_drop]
    rw [← hi]
    congr 1
    omega

theorem Exchange.of_mem_extend {xs : List (Exchange σ)} {e e' : Entry σ} {x : Exchange σ}
    (hx : x ∈ extend xs e) (he : e' ∈ x.offers) : e' = e ∨ ∃ y ∈ xs, e' ∈ y.offers := by
  unfold extend at hx
  split at hx
  · rcases List.mem_cons.mp hx with rfl | hx
    · cases he
    · exact .inr ⟨x, hx, he⟩
  · rcases List.mem_cons.mp hx with rfl | hx
    · cases he
    · exact .inr ⟨x, hx, he⟩
  · rename_i y ys _
    rcases List.mem_cons.mp hx with rfl | hx
    · rcases List.mem_append.mp he with he | he
      · exact .inr ⟨y, List.mem_cons_self .., he⟩
      · exact .inl (List.mem_singleton.mp he)
    · exact .inr ⟨x, List.mem_cons_of_mem _ hx, he⟩
  · exact .inr ⟨x, hx, he⟩

/-- What followed a call is in the log. -/
theorem mem_of_mem_offers {log : List (Entry σ)} {x : Exchange σ} (hx : x ∈ exchanges log)
    {e : Entry σ} (he : e ∈ x.offers) : e ∈ log := by
  induction log generalizing x with
  | nil => cases hx
  | cons e' past ih =>
    obtain rfl | ⟨y, hy, he⟩ := Exchange.of_mem_extend hx he
    · exact List.mem_cons_self ..
    · exact List.mem_cons_of_mem _ (ih hy he)

theorem Screened.not_recent {accepted : List String} {items : List Item} {offers : List (Entry σ)}
    (h : Screened p i op accepted items offers) {e : Entry σ} (he : e ∈ offers) {d : Delivery}
    (hd : e.accepted = some d) : d.identity = op.identity p ∧
      d.item.id ∉ (idsUnder (op.identity p) e.world.acceptances).rtake p.settings.maxHistory := by
  induction h with
  | nil => cases he
  | leftOut _ _ ih => exact ih he
  | accepted hnot hw _ ih =>
    rcases List.mem_cons.mp he with rfl | he
    · obtain rfl := Option.some.inj hd
      subst hw
      exact ⟨rfl, hnot⟩
    · exact ih he
  | refused =>
    obtain rfl := List.mem_singleton.mp he
    cases hd

/-- What a poll gave was not among the last that had been accepted. -/
theorem Exchange.Fair.not_recent {x : Exchange σ} (h : x.Fair p) (hpoll : x.IsPoll) {e : Entry σ}
    (he : e ∈ x.offers) {d : Delivery} (hd : e.accepted = some d) :
    d.item.id ∉ (idsUnder d.identity e.world.acceptances).rtake p.settings.maxHistory := by
  obtain ⟨⟨i, op, w, action, reply⟩, offers⟩ := x
  obtain ⟨path, cursor, params, rfl⟩ := hpoll
  match reply with
  | .error _ =>
    obtain rfl : offers = [] := h
    cases he
  | .ok items =>
    obtain ⟨hwho, hnot⟩ := Screened.not_recent h he hd
    rw [hwho]
    exact hnot

theorem square_of_reached (hskip : p.settings.skipDuplicates = true) {rule : Sink.Rule} {s : σ}
    {c : Course σ} (h : (inSequence p b).Reached rule s c) (hidle : c.Idle) :
    Square p c.toChronicle := by
  obtain ⟨w, hw, hl⟩ := h
  have hledger : Ledger p { world := w } := ledger_of_reached (R := inSequence p b) ⟨w, hw, .refl⟩
  obtain ⟨hvalid, backend, rfl⟩ := World.init_eq_ok hw
  obtain ⟨hpos, -⟩ := Settings.maxHistory_of_validate hvalid
  have hturns : InTurn (inSequence p b) _ _ _ _ := inTurn_screening hpos hskip
  have hstart : Straight p [] ({ world := _ } : Chronicle σ) := ⟨hledger, rfl, by simp [Traced]⟩
  have hgood := hturns.holds hl ⟨hstart, by simp [exchanges]⟩ trivial
  exact InTurn.Good.idle hturns hgood hidle

/-- Every poll screens what it read. Whatever was accepted was given by some exchange, and what a poll
gave is further from the same id before it than the window reaches. -/
theorem window_keeps_apart (hskip : p.settings.skipDuplicates = true) {rule : Sink.Rule} {s : σ}
    {c : Course σ} (h : (inSequence p b).Reached rule s c) (hidle : c.Idle) :
    (∀ x ∈ exchanges c.log, x.Fair p) ∧
      (∀ who (place : Nat) id, (idsUnder who c.world.acceptances)[place]? = some id →
        ∃ x ∈ exchanges c.log, x.Gave who place id) ∧
      ∀ x ∈ exchanges c.log, x.IsPoll → ∀ who (place : Nat) id, x.Gave who place id →
        (idsUnder who c.world.acceptances)[place]? = some id ∧
        ∀ earlier < place, (idsUnder who c.world.acceptances)[earlier]? = some id →
          earlier + p.settings.maxHistory < place := by
  have hsquare := square_of_reached hskip h hidle
  have haccounted := accounted_of_reached h
  refine ⟨hsquare.fair, ?_, ?_⟩
  · intro who place id hid
    obtain ⟨e, he, d, hd, hgave⟩ := haccounted.given who place id hid
    obtain ⟨x, hx, hoffer⟩ := hsquare.straight.traced e he (Entry.isDelivery_of_accepted hd)
    exact ⟨x, hx, e, hoffer, d, hd, hgave⟩
  · rintro x hx hpoll who place id ⟨e, he, d, hd, rfl, rfl, rfl⟩
    have hnot := (hsquare.fair x hx).not_recent hpoll he hd
    obtain ⟨later, hlater⟩ := haccounted.kept e (mem_of_mem_offers hx he) d hd
    have hids : idsUnder d.identity c.world.acceptances =
        idsUnder d.identity e.world.acceptances ++ d.item.id :: idsUnder d.identity later := by
      rw [← hlater]
      simp [idsUnder]
    rw [hids]
    refine ⟨by simp, ?_⟩
    intro earlier hearlier hid
    rw [List.getElem?_append_left hearlier] at hid
    exact lt_of_not_mem_rtake hnot hid

/-- Leaves out what it accepted last. -/
def lastOnly : Poller := { settings := { maxHistory := 1, skipDuplicates := true }, background := {} }

/-- The first read gives two items, and the second the first of them twice. -/
def overlappingReads : Script where
  reads := [⟨.ok [⟨"a", .null, []⟩, ⟨"b", .null, []⟩], none⟩,
    ⟨.ok [⟨"a", .null, []⟩, ⟨"a", .null, []⟩], none⟩]

/-- Two cycles; the second one accepts the item once more, and then leaves it out. -/
def acceptedAgain : Course Script :=
  let first := (List.replicate 13 0).foldl (Course.act lastOnly Script.backend)
    (({ world := {
      backend := { overlappingReads with created := 1 }, history := .new 1 true } } :
        Course Script).begin lastOnly .cycle)
  (List.replicate 11 1).foldl (Course.act lastOnly Script.backend) (first.begin lastOnly .cycle)

theorem acceptedAgain_window_keeps_apart :
    (inSequence lastOnly Script.backend).Reached .acceptAll overlappingReads acceptedAgain ∧
      acceptedAgain.Idle ∧
      idsUnder .shared acceptedAgain.world.acceptances = ["a", "b", "a"] ∧
      ∃ x ∈ exchanges acceptedAgain.log, x.Fair lastOnly ∧ x.IsPoll ∧ x.Gave .shared 2 "a" ∧
        0 + lastOnly.settings.maxHistory < 2 := by
  have hidle : acceptedAgain.Idle := by decide
  have h : (inSequence lastOnly Script.backend).Reached .acceptAll overlappingReads
      acceptedAgain := by
    refine ⟨_, rfl, (Rules.Later.begin (Rules.Later.turns (Rules.Later.begin .refl ?_) _) ?_).turns _⟩
    · show Course.Idle _
      decide
    · show Course.Idle _
      decide
  obtain ⟨hfair, hgiven, hapart⟩ := window_keeps_apart rfl h hidle
  obtain ⟨x, hx, hgave⟩ := hgiven .shared 2 "a" rfl
  have hpolls : ∀ x ∈ exchanges acceptedAgain.log, x.IsPoll := by
    refine List.forall_mem_cons.mpr ⟨⟨_, _, _, rfl⟩, List.forall_mem_cons.mpr ⟨⟨_, _, _, rfl⟩, ?_⟩⟩
    rintro x ⟨⟩
  obtain ⟨-, hwindow⟩ := hapart x hx (hpolls x hx) .shared 2 "a" hgave
  exact ⟨h, hidle, rfl, x, hx, hfair x hx, hpolls x hx, hgave, hwindow 0 (by decide) rfl⟩

end FeedPoller
