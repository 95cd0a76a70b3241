import FeedPoller.Proofs.GrowingFeed
import FeedPoller.Proofs.Operations

/-! Polls of one identity, one after another. What has been accepted downstream is at all times how the
feed begins: nothing is lost, repeated or put out of order. A poll whose read gave all there was and
that reports no failure brings it up to the whole feed. -/

namespace FeedPoller

variable {σ : Type} {p : Poller} {b : Backend σ} {feed : σ → List Item} {who : Identity}

/-- The items accepted downstream, in the order in which they came. -/
def World.handed (w : World σ) : List Item := (w.sink.accepted.map (·.item)).reverse

theorem World.handed_keep (w : World σ) (item : Item) (creds : CredentialSet) :
    World.handed { w with sink := w.sink.keep (.of item creds) } = w.handed ++ [item] := by
  simp [handed, Sink.keep, Delivery.of]

/-! ## What is remembered -/

/-- Of the items, the last ones are remembered. However few they are, the very last is among them. -/
structure Booked (who : Identity) (items : List Item) (h : History) : Prop where
  tracking : h.tracking = true
  snapshot : h.snapshot who <:+ ids items
  newest : (h.snapshot who).getLast? = (ids items).getLast?

theorem Booked.cursor {items : List Item} {h : History} (hb : Booked who items h) :
    h.cursor who = (ids items).getLast? := by
  rw [History.cursor_eq, hb.tracking, ← hb.newest]
  rfl

theorem Booked.not_seen {items : List Item} {h : History} (hb : Booked who items h) {id : String}
    (hid : id ∉ ids items) : h.seen who id = false := by
  rw [Bool.eq_false_iff, ne_eq, History.seen_iff]
  intro hmem
  exact hid (hb.snapshot.subset hmem)

theorem Booked.record {items : List Item} {h : History} (hb : Booked who items h) (item : Item) :
    Booked who (items ++ [item]) (h.record who item.id) := by
  have hids : ids (items ++ [item]) = ids items ++ [item.id] := by simp [ids]
  refine ⟨hb.tracking, ?_, ?_⟩
  · rw [History.snapshot_record, if_pos rfl, hids]
    have hshorter : (if h.capacity ≤ (h.snapshot who).length then (h.snapshot who).tail
        else h.snapshot who) <:+ h.snapshot who := by
      split
      · exact List.tail_suffix _
      · exact List.suffix_refl _
    obtain ⟨front, hfront⟩ := hshorter.trans hb.snapshot
    exact ⟨front, by rw [← List.append_assoc, hfront]⟩
  · rw [History.snapshot_record, if_pos rfl, hids]
    simp

/-! ## Stages of a poll -/

def InOrder (feed : σ → List Item) : Assertion σ :=
  fun c => c.world.handed <+: feed c.world.backend

/-- All that was accepted is recorded, and the rest comes next in the feed. -/
structure Upto (feed : σ → List Item) (who : Identity) (rest : List Item) (c : Chronicle σ) :
    Prop where
  booked : Booked who c.world.handed c.world.history
  ahead : c.world.handed ++ rest <+: feed c.world.backend

/-- The operation has read nothing yet. -/
def Unread (i : Nat) (op : Operation) (c : Chronicle σ) : Prop :=
  ∀ w path cursor params r, (⟨i, op, w, .read path cursor params, r⟩ : Entry σ) ∉ c.log

/-- If the operation has read all there was, then with the rest this is handed out. -/
def Completes (feed : σ → List Item) (i : Nat) (op : Operation) (rest : List Item)
    (c : Chronicle σ) : Prop :=
  ∀ w path cursor params,
    (⟨i, op, w, .read path cursor params, .ok (itemsAfter (feed w.backend) cursor)⟩ : Entry σ) ∈
      c.log → c.world.handed ++ rest = feed w.backend

/-- Before the read. -/
structure Ready (feed : σ → List Item) (who : Identity) (i : Nat) (op : Operation)
    (c : Chronicle σ) : Prop where
  upto : Upto feed who [] c
  unread : Unread i op c

/-- Before the read, with the cursor at hand. -/
structure Poised (feed : σ → List Item) (who : Identity) (i : Nat) (op : Operation)
    (cursor : Option String) (c : Chronicle σ) : Prop extends Ready feed who i op c where
  cursor : cursor = (ids c.world.handed).getLast?

/-- While the items that were read are offered. -/
structure Offering (feed : σ → List Item) (who : Identity) (i : Nat) (op : Operation)
    (rest : List Item) (c : Chronicle σ) : Prop where
  upto : Upto feed who rest c
  completes : Completes feed i op rest c

/-- While one of them is accepted and not yet recorded. -/
structure Handing (feed : σ → List Item) (who : Identity) (i : Nat) (op : Operation) (item : Item)
    (rest : List Item) (c : Chronicle σ) : Prop where
  booked : ∃ before, c.world.handed = before ++ [item] ∧ Booked who before c.world.history
  ahead : c.world.handed ++ rest <+: feed c.world.backend
  completes : Completes feed i op rest c

/-- At the end; `ok` tells whether it is a good one. -/
structure Ended (feed : σ → List Item) (who : Identity) (i : Nat) (op : Operation) (ok : Prop)
    (c : Chronicle σ) : Prop where
  upto : Upto feed who [] c
  completes : ok → Completes feed i op [] c

/-! ## What leaves a stage as it is -/

variable {i : Nat} {op : Operation}

/-- No new read is in the log. -/
def SameReads (c c' : Chronicle σ) : Prop :=
  ∀ e ∈ c'.log, e ∈ c.log ∨ ∀ path cursor params, e.action ≠ .read path cursor params

/-- As it was, except that the feed may have grown. -/
structure Keeps (feed : σ → List Item) (c c' : Chronicle σ) : Prop where
  history : c'.world.history = c.world.history
  handed : c'.world.handed = c.world.handed
  feed : feed c.world.backend <+: feed c'.world.backend
  reads : SameReads c c'

def Kept (feed : σ → List Item) (P : Assertion σ) : Prop := ∀ c c', P c → Keeps feed c c' → P c'

theorem SameReads.cons {c : Chronicle σ} {e : Entry σ} {w : World σ}
    (h : ∀ path cursor params, e.action ≠ .read path cursor params) :
    SameReads c ⟨w, e :: c.log⟩ := by
  intro e' he'
  obtain rfl | he' := List.mem_cons.mp he'
  · exact .inr h
  · exact .inl he'

theorem SameReads.mem {c c' : Chronicle σ} (h : SameReads c c') {w : World σ}
    {path : PathId} {cursor : Option String} {params : Json.Fields}
    {r : Except ReadFailure (List Item)}
    (he : (⟨i, op, w, .read path cursor params, r⟩ : Entry σ) ∈ c'.log) :
    (⟨i, op, w, .read path cursor params, r⟩ : Entry σ) ∈ c.log := by
  obtain hold | hnew := h _ he
  · exact hold
  · exact absurd rfl (hnew path cursor params)

theorem Upto.kept {rest : List Item} : Kept feed (Upto feed who rest) := by
  intro c c' h hk
  refine ⟨?_, ?_⟩
  · rw [hk.history, hk.handed]
    exact h.booked
  · rw [hk.handed]
    exact h.ahead.trans hk.feed

theorem Unread.later {c c' : Chronicle σ} (h : Unread i op c)
    (hr : SameReads c c') : Unread i op c' :=
  fun w path cursor params r he => h w path cursor params r (hr.mem he)

theorem Completes.later {rest rest' : List Item} {c c' : Chronicle σ}
    (h : Completes feed i op rest c) (hr : SameReads c c')
    (hh : c'.world.handed ++ rest' = c.world.handed ++ rest) : Completes feed i op rest' c' := by
  intro w path cursor params he
  rw [hh]
  exact h w path cursor params (hr.mem he)

theorem Ready.kept : Kept feed (Ready feed who i op) :=
  fun c c' h hk => ⟨Upto.kept c c' h.upto hk, h.unread.later hk.reads⟩

theorem Poised.kept {cursor : Option String} : Kept feed (Poised feed who i op cursor) := by
  intro c c' h hk
  refine ⟨Ready.kept c c' h.toReady hk, ?_⟩
  rw [hk.handed]
  exact h.cursor

theorem Offering.kept {rest : List Item} : Kept feed (Offering feed who i op rest) := by
  intro c c' h hk
  have hhanded : c'.world.handed ++ rest = c.world.handed ++ rest := by rw [hk.handed]
  exact ⟨Upto.kept c c' h.upto hk, h.completes.later hk.reads hhanded⟩

theorem Handing.kept {item : Item} {rest : List Item} :
    Kept feed (Handing feed who i op item rest) := by
  intro c c' h hk
  have hhanded : c'.world.handed ++ rest = c.world.handed ++ rest := by rw [hk.handed]
  refine ⟨?_, ?_, h.completes.later hk.reads hhanded⟩
  · rw [hk.handed, hk.history]
    exact h.booked
  · rw [hk.handed]
    exact h.ahead.trans hk.feed

theorem Ended.kept {ok : Prop} : Kept feed (Ended feed who i op ok) := by
  intro c c' h hk
  refine ⟨Upto.kept c c' h.upto hk, fun hok => ?_⟩
  have hhanded : c'.world.handed ++ [] = c.world.handed ++ [] := by rw [hk.handed]
  exact (h.completes hok).later hk.reads hhanded

theorem Upto.inOrder {rest : List Item} {c : Chronicle σ} (h : Upto feed who rest c) :
    InOrder feed c := (List.prefix_append ..).trans h.ahead

theorem Upto.settled {rest : List Item} {c : Chronicle σ} (h : Upto feed who rest c) :
    Upto feed who [] c := by
  refine ⟨h.booked, ?_⟩
  rw [List.append_nil]
  exact h.inOrder

theorem Ready.ended {ok : Prop} {c : Chronicle σ}
    (h : Ready feed who i op c) : Ended feed who i op ok c :=
  ⟨h.upto, fun _ w path cursor params he => absurd he (h.unread w path cursor params _)⟩

/-! ## Taking turns -/

/-- Polls of one identity, each of which begins when those before it are done. At any time the feed
may grow. -/
def sequential (p : Poller) (b : Backend σ) (feed : σ → List Item) (who : Identity) : Rules p b where
  moves s s' := feed s <+: feed s'
  begins c op := c.Idle ∧ op.PollsFor p who

/-- The terms of the poll that has the turn. -/
abbrev inTurn (p : Poller) (b : Backend σ) (feed : σ → List Item) (who : Identity) (i : Nat)
    (op : Operation) : Terms p b :=
  (sequential p b feed who).turn (fun _ _ _ c => InOrder feed c) i op

open Terms

theorem Keeps.meanwhile {c : Chronicle σ} {w : World σ}
    (hw : Meanwhile (sequential p b feed who).moves c.world w) :
    Keeps feed c { c with world := w } := by
  obtain ⟨hh, hs, -⟩ := hw.apart
  exact ⟨hh, by simp [World.handed, hs], hw.feed_grows, fun e he => .inl he⟩

theorem Kept.lasts {P : Assertion σ} (hP : Kept feed P) : (inTurn p b feed who i op).Lasts P :=
  Rules.lasts_turn fun c _ h hw => hP c _ h (.meanwhile hw)

theorem Kept.calm (hb : GrowingFeed b p.settings.query feed) {P : Assertion σ} (hP : Kept feed P)
    (hin : ∀ c, P c → InOrder feed c) : (inTurn p b feed who i op).Calm P where
  lasts := hP.lasts
  aside c action ha h := by
    have hhanded : World.handed (c.world.perform p b action).2 = c.world.handed := by
      rw [World.handed, World.sink_perform c.world ha.ne_dispatch]
      rfl
    have hk : Keeps feed c ((inTurn p b feed who i op).perform c action).2 :=
      ⟨World.history_perform c.world ha.ne_record, hhanded, hb.perform_isAside c.world ha,
        .cons ha.ne_read⟩
    have hafter := hP c _ h hk
    exact ⟨hin _ hafter, hafter⟩

theorem cursor_inTurn :
    (inTurn p b feed who i op).Ensures (Ready feed who i op) (Plan.one (.cursor who))
      (Poised feed who i op) := by
  refine .cursor Ready.kept.lasts fun c h => ?_
  have hk : Keeps feed c ((inTurn p b feed who i op).after c (.cursor who)
      (c.world.history.cursor who) c.world) := ⟨rfl, rfl, List.prefix_refl _, .cons (by simp)⟩
  have hready := Ready.kept c _ h hk
  exact ⟨hready.upto.inOrder, hready, h.upto.booked.cursor⟩

theorem Ended.mono {ok ok' : Prop} {c : Chronicle σ} (h : Ended feed who i op ok c)
    (hok : ok' → ok) : Ended feed who i op ok' c := ⟨h.upto, fun ho => h.completes (hok ho)⟩

theorem read_inTurn (hb : GrowingFeed b p.settings.query feed) {path : PathId}
    {cursor : Option String} :
    (inTurn p b feed who i op).Ensures (Poised feed who i op cursor)
      (Plan.one (.read path cursor p.settings.query)) fun r => match r with
        | .error _ => Ended feed who i op True
        | .ok items => Offering feed who i op items := by
  refine .read Poised.kept.lasts fun c r s h hr hs => ?_
  have hf : feed c.world.backend <+: feed s := hs ▸ hb.read path cursor c.world.backend
  refine ⟨h.upto.inOrder.trans hf, ?_⟩
  match r with
  | .error e =>
    refine ⟨⟨h.upto.booked, h.upto.ahead.trans hf⟩, fun _ w path' cursor' params' he => ?_⟩
    obtain he | he := List.mem_cons.mp he
    · cases he
    · exact absurd he (h.unread w path' cursor' params' _)
  | .ok items =>
    obtain rfl := h.cursor
    refine ⟨⟨h.upto.booked, (hb.answer_after h.upto.inOrder hr).trans hf⟩, ?_⟩
    -- the read that is entered now is the only one of this operation
    intro w path' cursor' params' he
    obtain he | he := List.mem_cons.mp he
    · cases he
      exact append_itemsAfter (hb.distinct _) h.upto.inOrder
    · exact absurd he (h.unread w path' cursor' params' _)

/-- An item that comes next is not among the remembered ones. -/
theorem Offering.not_seen (hb : GrowingFeed b p.settings.query feed) {item : Item} {rest : List Item}
    {c : Chronicle σ} (h : Offering feed who i op (item :: rest) c) :
    c.world.history.seen who item.id = false := by
  refine h.upto.booked.not_seen fun hmem => ?_
  have hfront : ids (c.world.handed ++ item :: rest) <+: ids (feed c.world.backend) :=
    h.upto.ahead.map _
  have hdistinct := hfront.sublist.nodup (hb.distinct _)
  rw [ids, List.map_append, List.nodup_append] at hdistinct
  exact hdistinct.2.2 _ hmem item.id (by simp) rfl

theorem isRepeated_inTurn (hb : GrowingFeed b p.settings.query feed)
    (hskip : p.settings.skipDuplicates = true) (item : Item) (rest : List Item) :
    (inTurn p b feed who i op).Ensures (Offering feed who i op (item :: rest))
      (p.isRepeated who item.id) fun repeated => if repeated = true then Offering feed who i op rest
        else Offering feed who i op (item :: rest) := by
  rw [Poller.isRepeated, if_pos hskip]
  refine .seen Offering.kept.lasts fun c h => ?_
  have hk : Keeps feed c ((inTurn p b feed who i op).after c (.seen who item.id)
      (c.world.history.seen who item.id) c.world) := ⟨rfl, rfl, List.prefix_refl _, .cons (by simp)⟩
  have hafter := Offering.kept c _ h hk
  rw [h.not_seen hb] at hafter ⊢
  exact ⟨hafter.upto.inOrder, hafter⟩

theorem deliver_inTurn {creds : CredentialSet} (item : Item) (rest : List Item) :
    (inTurn p b feed who i op).Ensures (Offering feed who i op (item :: rest))
      (Poller.deliver who creds item) fun r => match r with
        | .error _ => Ended feed who i op False
        | .ok () => Offering feed who i op rest := by
  refine Poller.deliver_ensures (D := Handing feed who i op item rest)
    (.dispatch Offering.kept.lasts (fun c reason h => ?_) fun c h => ?_)
    (.record Handing.kept.lasts fun c h => ?_)
  · have hk : Keeps feed c ((inTurn p b feed who i op).after c (.dispatch (.of item creds))
        (.error reason) { c.world with sink := c.world.sink.noted }) :=
      ⟨rfl, rfl, List.prefix_refl _, .cons (by simp)⟩
    have hafter := Offering.kept c _ h hk
    exact ⟨hafter.upto.inOrder, hafter.upto.settled, False.elim⟩
  · have hhanded := c.world.handed_keep item creds
    have hahead : c.world.handed ++ [item] ++ rest <+: feed c.world.backend := by
      simpa using h.upto.ahead
    rw [← hhanded] at hahead
    have hcompletes : Completes feed i op rest ((inTurn p b feed who i op).after c
        (.dispatch (.of item creds)) (.ok ())
        { c.world with sink := c.world.sink.keep (.of item creds) }) :=
      h.completes.later (.cons (by simp)) (by simp [after, hhanded])
    exact ⟨(List.prefix_append ..).trans hahead, ⟨_, hhanded, h.upto.booked⟩, hahead, hcompletes⟩
  · obtain ⟨before, hhanded, hbooked⟩ := h.booked
    refine ⟨(List.prefix_append ..).trans h.ahead, ⟨?_, h.ahead⟩, ?_⟩
    · change Booked who c.world.handed (c.world.history.record who item.id)
      rw [hhanded]
      exact hbooked.record item
    · exact h.completes.later (.cons (by simp)) rfl

theorem poll_inTurn (hb : GrowingFeed b p.settings.query feed)
    (hskip : p.settings.skipDuplicates = true) (creds : CredentialSet) (path : PathId)
    (cursor : Option String) :
    (inTurn p b feed who i op).Ensures (Poised feed who i op cursor)
      (p.poll path who cursor p.settings.query creds)
      fun r => Ended feed who i op (∃ report, r = .ok report) := by
  have hended : ∀ ok, (inTurn p b feed who i op).Calm (Ended feed who i op ok) :=
    fun _ => Ended.kept.calm hb fun _ h => h.upto.inOrder
  refine Poller.poll_ensures (S := Ended feed who i op True) (R := Offering feed who i op)
    (hended _) (fun _ => hended _) ((read_inTurn hb).mono (fun _ h => h) fun r c h => ?_)
    (fun _ _ h => h.mono fun _ => trivial) fun items => ?_
  · match r with
    | .error (.rateLimited _) => exact h
    | .error (.fetch _) => exact h.mono fun _ => trivial
    | .ok _ => exact h
  · refine Poller.offer_ensures (R := fun items _ => Offering feed who i op items)
      (O := fun item rest _ => Offering feed who i op (item :: rest))
      (fun _ _ h => ⟨h.upto, fun _ => h.completes⟩)
      (fun item rest _ => isRepeated_inTurn hb hskip item rest) (fun item rest _ => ?_) items {}
    refine (deliver_inTurn item rest).mono (fun _ h => h) fun r c h => ?_
    match r with
    | .error _ => exact h.mono fun ⟨_, he⟩ => by cases he
    | .ok () => exact h

theorem plan_inTurn (hb : GrowingFeed b p.settings.query feed)
    (hskip : p.settings.skipDuplicates = true) (hop : op.PollsFor p who) :
    (inTurn p b feed who i op).Ensures (Ready feed who i op) (op.plan p)
      fun outcome => Ended feed who i op outcome.IsOk := by
  have hready : (inTurn p b feed who i op).Calm (Ready feed who i op) :=
    Ready.kept.calm hb fun _ h => h.upto.inOrder
  have hpoised : ∀ cursor, (inTurn p b feed who i op).Calm (Poised feed who i op cursor) :=
    fun _ => Poised.kept.calm hb fun _ h => h.upto.inOrder
  have hended : ∀ ok, (inTurn p b feed who i op).Calm (Ended feed who i op ok) :=
    fun _ => Ended.kept.calm hb fun _ h => h.upto.inOrder
  exact Poller.pollsFor_ensures (E := Ended feed who i op) hop hready hpoised hended
    (fun _ _ _ hok h => h.mono hok) (fun _ h => h.ended) (fun _ _ h => h.toReady.ended)
    cursor_inTurn fun creds path cursor _ => poll_inTurn hb hskip creds path cursor

/-- Nothing is accepted yet, and nothing remembered. -/
theorem Upto.start {rule : Sink.Rule} {s : σ} :
    Upto feed who [] { world := {
      backend := s, history := .new p.settings.maxHistory true, sink := { rule } } } where
  booked := ⟨rfl, List.suffix_refl _, rfl⟩
  ahead := List.nil_prefix

theorem inTurn_sequential (hb : GrowingFeed b p.settings.query feed)
    (hskip : p.settings.skipDuplicates = true) :
    InTurn (sequential p b feed who) (fun _ _ _ c => InOrder feed c)
      (fun i op outcome => Ended feed who i op outcome.IsOk) (Upto feed who []) (InOrder feed) where
  turns _ _ h := h.1
  worldJ c _ h hw := Upto.kept c _ h (.meanwhile hw)
  worldK c _ h hw := by
    have hk : Keeps feed c _ := .meanwhile hw
    rw [InOrder, hk.handed]
    exact List.IsPrefix.trans h hk.feed
  worldPost _ _ _ c _ h hw := Ended.kept c _ h (.meanwhile hw)
  kept _ _ _ _ h _ := h
  begin c op h hn hupto := by
    refine plan_inTurn hb hskip h.2 _ ⟨hupto, fun w path cursor params r he => ?_⟩
    exact absurd (hn _ he) (Nat.lt_irrefl _)
  done _ _ _ _ h := h.upto

/-- What was accepted is in order at all times. The rest is about an operation that is just done and
that had read, in the world `w`, all there was behind its cursor. -/
theorem handed_in_order (hb : GrowingFeed b p.settings.query feed)
    (hskip : p.settings.skipDuplicates = true) {rule : Sink.Rule} {s : σ} {c : Course σ}
    (h : (sequential p b feed who).Reached rule s c) :
    c.world.handed <+: feed c.world.backend ∧
      ∀ earlier op outcome w path cursor params, c.tasks = earlier ++ [⟨op, .done outcome⟩] →
        (⟨earlier.length, op, w, .read path cursor params,
          .ok (itemsAfter (feed w.backend) cursor)⟩ : Entry σ) ∈ c.log →
        outcome.IsOk → c.world.handed = feed w.backend := by
  obtain ⟨w, hw, hl⟩ := h
  obtain ⟨-, backend, rfl⟩ := World.init_eq_ok hw
  rw [hskip] at hl
  have hgood := (inTurn_sequential hb hskip).holds hl Upto.start List.nil_prefix
  refine ⟨hgood.always, fun earlier op outcome w path cursor params htasks he hok => ?_⟩
  have hended := hgood.last htasks
  rw [← hended.completes hok w path cursor params he, List.append_nil]

/-- Refuses what comes second. -/
def busyOnce : Sink.Rule := ⟨fun offered _ => if offered = 1 then some "busy" else none⟩

/-- The first cycle ends at an item that is refused; the second goes on there. -/
def refusedOnce : Course Shelf :=
  let first := (List.replicate 9 0).foldl (Course.act Shelf.reader Shelf.backend)
    ((Shelf.start Shelf.reader busyOnce .twoItems).begin Shelf.reader .cycle)
  (List.replicate 10 1).foldl (Course.act Shelf.reader Shelf.backend)
    (first.begin Shelf.reader .cycle)

theorem refusedOnce_handed_in_order :
    (sequential Shelf.reader Shelf.backend Subtype.val .shared).Reached busyOnce
        .twoItems refusedOnce ∧
      ids refusedOnce.world.handed = ["a", "b"] ∧
      refusedOnce.world.handed <+: refusedOnce.world.backend.val ∧
      refusedOnce.world.handed = Shelf.twoItems.val := by
  have hcycle : Operation.cycle.PollsFor Shelf.reader .shared := ⟨rfl, by simp⟩
  have h : (sequential Shelf.reader Shelf.backend Subtype.val .shared).Reached busyOnce
      .twoItems refusedOnce := by
    refine ⟨_, rfl, (Rules.Later.begin (Rules.Later.turns (Rules.Later.begin .refl ?_) _) ?_).turns _⟩
    · exact ⟨by decide, hcycle⟩
    · exact ⟨by decide, hcycle⟩
  obtain ⟨hfront, hwhole⟩ := handed_in_order (Shelf.growingFeed _) rfl h
  have hread := List.get_mem refusedOnce.log ⟨6, by decide⟩
  exact ⟨h, rfl, hfront, hwhole (refusedOnce.tasks.take 1) .cycle _ _ _ _ _ rfl hread ⟨_, rfl⟩⟩

end FeedPoller
