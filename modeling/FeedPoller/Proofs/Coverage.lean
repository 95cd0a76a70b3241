import FeedPoller.Proofs.GrowingFeed
import FeedPoller.Proofs.Operations

/-! Overlapping polls of one identity. However their cursors, reads, checks, deliveries and records fall
among each other, an id is recorded only when the feed has been delivered up to it. So the cursor, which
may go back as records overtake each other, never passes an undelivered item. -/

namespace FeedPoller

variable {σ : Type} {p : Poller} {b : Backend σ} {feed : σ → List Item} {who : Identity}

/-- Accepted downstream for an identity. -/
def Delivered (who : Identity) (w : World σ) (item : Item) : Prop :=
  ∃ d ∈ w.sink.accepted, d.item = item ∧ d.identity = who

/-- Recorded for an identity at some time, whether or not it is still remembered. -/
def Chronicle.Recorded (c : Chronicle σ) (who : Identity) (id : String) : Prop :=
  (who, id) ∈ c.records

/-- Items with which the feed begins and of which none is undelivered. -/
structure Cleared (feed : σ → List Item) (who : Identity) (c : Chronicle σ) (items : List Item) :
    Prop where
  begins : items <+: feed c.world.backend
  delivered : ∀ x ∈ items, Delivered who c.world x

/-- What holds at all times: the feed is cleared up to whatever was recorded. -/
structure Covered (feed : σ → List Item) (who : Identity) (c : Chronicle σ) : Prop where
  remembered : ∀ id ∈ c.world.history.snapshot who, c.Recorded who id
  recorded : ∀ id, c.Recorded who id →
    ∃ before item, Cleared feed who c (before ++ [item]) ∧ item.id = id

/-- What every poll may rely on of the others and owes to them. -/
structure Advances (feed : σ → List Item) (who : Identity) (c c' : Chronicle σ) : Prop where
  covered : Covered feed who c'
  feed : feed c.world.backend <+: feed c'.world.backend
  accepted : c.world.sink.accepted <:+ c'.world.sink.accepted
  records : c.records <+: c'.records

/-- The terms of a poll among others. -/
abbrev overlap (p : Poller) (b : Backend σ) (feed : σ → List Item) (who : Identity) (i : Nat)
    (op : Operation) : Terms p b := ⟨i, op, Advances feed who, Advances feed who⟩

theorem Delivered.later {w w' : World σ} {item : Item} (h : Delivered who w item)
    (ha : w.sink.accepted <:+ w'.sink.accepted) : Delivered who w' item := by
  obtain ⟨d, hd, hitem⟩ := h
  exact ⟨d, ha.subset hd, hitem⟩

theorem Cleared.later {c c' : Chronicle σ} {items : List Item} (h : Cleared feed who c items)
    (hf : feed c.world.backend <+: feed c'.world.backend)
    (ha : c.world.sink.accepted <:+ c'.world.sink.accepted) : Cleared feed who c' items :=
  ⟨h.begins.trans hf, fun x hx => (h.delivered x hx).later ha⟩

theorem Advances.trans {c c' c'' : Chronicle σ} (h : Advances feed who c c')
    (h' : Advances feed who c' c'') : Advances feed who c c'' :=
  ⟨h'.covered, h.feed.trans h'.feed, h.accepted.trans h'.accepted,
    h.records.trans h'.records⟩

theorem Advances.cleared {c c' : Chronicle σ} {items : List Item} (h : Advances feed who c c')
    (hc : Cleared feed who c items) : Cleared feed who c' items := hc.later h.feed h.accepted

theorem Advances.recorded {c c' : Chronicle σ} {id : String} (h : Advances feed who c c')
    (hc : c.Recorded who id) : c'.Recorded who id := h.records.subset hc

/-! ## What the actions keep -/

open Terms

variable {i : Nat} {op : Operation}

/-- Any action but a record, if it neither touches the history nor takes back a delivery. -/
theorem Covered.act {c : Chronicle σ} (hc : Covered feed who c) (T : Terms p b) (action : Action)
    (reply : action.Reply) (w : World σ) (hrec : ∀ who id, action ≠ .record who id)
    (hh : w.history = c.world.history) (hf : feed c.world.backend <+: feed w.backend)
    (ha : c.world.sink.accepted <:+ w.sink.accepted) :
    Advances feed who c (T.after c action reply w) := by
  have hrecords : (T.after c action reply w).records = c.records := by
    rw [after, Chronicle.records_cons, Entry.recorded_of_ne hrec]
    exact List.append_nil _
  refine ⟨⟨fun id hid => ?_, fun id hid => ?_⟩, hf, ha, hrecords ▸ List.prefix_refl _⟩
  · rw [Chronicle.Recorded, hrecords]
    exact hc.remembered id (hh ▸ hid)
  · rw [Chronicle.Recorded, hrecords] at hid
    obtain ⟨before, item, hclear, hitem⟩ := hc.recorded id hid
    exact ⟨before, item, hclear.later hf ha, hitem⟩

/-- An id may be recorded once the feed is cleared up to it. -/
theorem Covered.record {c : Chronicle σ} (hc : Covered feed who c) (T : Terms p b)
    {before : List Item} {item : Item} (hclear : Cleared feed who c (before ++ [item])) :
    Advances feed who c (T.after c (.record who item.id) ()
      { c.world with history := c.world.history.record who item.id }) := by
  have hrecords : (T.after c (.record who item.id) ()
      { c.world with history := c.world.history.record who item.id }).records =
        c.records ++ [(who, item.id)] := Chronicle.records_cons ..
  refine ⟨⟨fun id hid => ?_, fun id hid => ?_⟩, List.prefix_refl _, List.suffix_refl _,
    hrecords ▸ List.prefix_append ..⟩
  · rw [Chronicle.Recorded, hrecords, List.mem_append, List.mem_singleton]
    change id ∈ (c.world.history.record who item.id).snapshot who at hid
    rw [History.snapshot_record, if_pos rfl, List.mem_append, List.mem_singleton] at hid
    obtain hold | rfl := hid
    · have hmem : id ∈ c.world.history.snapshot who := by
        split at hold
        · exact List.mem_of_mem_tail hold
        · exact hold
      exact .inl (hc.remembered id hmem)
    · exact .inr rfl
  · rw [Chronicle.Recorded, hrecords, List.mem_append, List.mem_singleton] at hid
    obtain hold | hnew := hid
    · obtain ⟨before', item', hclear', hitem'⟩ := hc.recorded id hold
      exact ⟨before', item', ⟨hclear'.begins, hclear'.delivered⟩, hitem'⟩
    · cases hnew
      exact ⟨before, item, ⟨hclear.begins, hclear.delivered⟩, rfl⟩

theorem calm_overlap (hb : GrowingFeed b p.settings.query feed) {P : Assertion σ}
    (hP : ∀ c c', P c → Advances feed who c c' → P c') (hc : ∀ c, P c → Covered feed who c) :
    (overlap p b feed who i op).Calm P where
  lasts := hP
  aside c action ha h := by
    have hs := World.sink_perform (p := p) (b := b) c.world ha.ne_dispatch
    have hstep := (hc c h).act (overlap p b feed who i op) action
      (c.world.perform p b action).1.value (c.world.perform p b action).2
      ha.ne_record (World.history_perform c.world ha.ne_record) (hb.perform_isAside c.world ha)
      (hs ▸ List.suffix_refl _)
    exact ⟨hstep, hP _ _ h hstep⟩

theorem calm_covered (hb : GrowingFeed b p.settings.query feed) :
    (overlap p b feed who i op).Calm (Covered feed who) :=
  calm_overlap hb (fun _ _ _ h => h.covered) fun _ h => h

/-! ## What a poll ensures -/

/-- Polling from a cursor passes over nothing. -/
structure FromCursor (feed : σ → List Item) (who : Identity) (cursor : Option String)
    (c : Chronicle σ) : Prop where
  covered : Covered feed who c
  recorded : ∀ id ∈ cursor, c.Recorded who id

/-- The feed is cleared up to where the items stand in it. -/
structure Ahead (feed : σ → List Item) (who : Identity) (items : List Item) (c : Chronicle σ) :
    Prop where
  covered : Covered feed who c
  place : ∃ before, Cleared feed who c before ∧ before ++ items <+: feed c.world.backend

theorem FromCursor.later {cursor : Option String} {c c' : Chronicle σ}
    (h : FromCursor feed who cursor c) (ha : Advances feed who c c') :
    FromCursor feed who cursor c' := ⟨ha.covered, fun id hid => ha.recorded (h.recorded id hid)⟩

theorem Ahead.later {items : List Item} {c c' : Chronicle σ} (h : Ahead feed who items c)
    (ha : Advances feed who c c') : Ahead feed who items c' := by
  obtain ⟨before, hclear, hpre⟩ := h.place
  exact ⟨ha.covered, before, ha.cleared hclear, hpre.trans ha.feed⟩

/-- There is a front of the feed that is cleared and ends at the cursor. -/
theorem FromCursor.front {cursor : Option String} {c : Chronicle σ} (h : FromCursor feed who cursor c) :
    ∃ front, Cleared feed who c front ∧ (ids front).getLast? = cursor := by
  cases cursor with
  | none => exact ⟨[], ⟨List.nil_prefix, by simp⟩, rfl⟩
  | some id =>
    obtain ⟨before, item, hclear, rfl⟩ := h.covered.recorded id (h.recorded id rfl)
    exact ⟨before ++ [item], hclear, by simp [ids]⟩

/-- Past an item that was delivered. -/
theorem Ahead.next {item : Item} {rest : List Item} {c : Chronicle σ}
    (h : Ahead feed who (item :: rest) c) (hd : Delivered who c.world item) :
    ∃ before, Cleared feed who c (before ++ [item]) ∧
      before ++ [item] ++ rest <+: feed c.world.backend := by
  obtain ⟨before, hclear, hpre⟩ := h.place
  have hsplit : before ++ item :: rest = before ++ [item] ++ rest := by simp
  rw [hsplit] at hpre
  refine ⟨before, ⟨(List.prefix_append ..).trans hpre, fun x hx => ?_⟩, hpre⟩
  obtain hx | hx := List.mem_append.mp hx
  · exact hclear.delivered x hx
  · rw [List.mem_singleton.mp hx]
    exact hd

/-- An item whose id is remembered was delivered: the feed has no other item with that id. -/
theorem Ahead.delivered_of_mem_snapshot (hb : GrowingFeed b p.settings.query feed) {item : Item}
    {rest : List Item} {c : Chronicle σ} (h : Ahead feed who (item :: rest) c)
    (hseen : item.id ∈ c.world.history.snapshot who) : Delivered who c.world item := by
  obtain ⟨before, -, after, hfeed⟩ := h.place
  obtain ⟨before', item', ⟨⟨after', hfeed'⟩, hdel⟩, hid⟩ :=
    h.covered.recorded _ (h.covered.remembered _ hseen)
  simp only [List.append_assoc, List.cons_append, List.nil_append] at hfeed hfeed'
  -- the id stands in the feed here and where it was recorded, and these are one place
  have hdistinct := hb.distinct c.world.backend
  rw [← hfeed'] at hfeed hdistinct
  obtain ⟨-, rfl, -⟩ := append_cons_inj_of_nodup hdistinct hfeed.symm hid
  exact hdel item' (by simp)

theorem isRepeated_overlap (hb : GrowingFeed b p.settings.query feed) (item : Item)
    (rest : List Item) :
    (overlap p b feed who i op).Ensures (Ahead feed who (item :: rest)) (p.isRepeated who item.id)
      fun repeated => if repeated = true then Ahead feed who rest
        else Ahead feed who (item :: rest) := by
  unfold Poller.isRepeated
  split
  · refine .seen (fun _ _ => Ahead.later) fun c h => ?_
    have hstep := h.covered.act (overlap p b feed who i op) (.seen who item.id)
      (c.world.history.seen who item.id) c.world (by simp) rfl (List.prefix_refl _)
      (List.suffix_refl _)
    refine ⟨hstep, ?_⟩
    split
    · rename_i hseen
      have hdel := h.delivered_of_mem_snapshot hb ((History.seen_iff ..).mp hseen)
      obtain ⟨before, hclear, hpre⟩ := h.next hdel
      exact Ahead.later ⟨h.covered, _, hclear, hpre⟩ hstep
    · exact h.later hstep
  · exact .pure fun _ h => h

theorem deliver_overlap {creds : CredentialSet} (hwho : creds.identity = who) (item : Item)
    (rest : List Item) :
    (overlap p b feed who i op).Ensures (Ahead feed who (item :: rest))
      (Poller.deliver who creds item) fun r => match r with
        | .error _ => Covered feed who
        | .ok () => Ahead feed who rest := by
  refine Poller.deliver_ensures
    (D := fun c => Ahead feed who (item :: rest) c ∧ Delivered who c.world item)
    (.dispatch (fun _ _ => Ahead.later) (fun c reason h => ?_) fun c h => ?_)
    (.record (fun _ _ h ha => ⟨h.1.later ha, h.2.later ha.accepted⟩) fun c h => ?_)
  · have hstep := h.covered.act (overlap p b feed who i op) (.dispatch (.of item creds))
      (.error reason) { c.world with sink := c.world.sink.noted } (by simp) rfl
      (List.prefix_refl _) (List.suffix_refl _)
    exact ⟨hstep, hstep.covered⟩
  · have hstep := h.covered.act (overlap p b feed who i op) (.dispatch (.of item creds)) (.ok ())
      { c.world with sink := c.world.sink.keep (.of item creds) } (by simp) rfl
      (List.prefix_refl _) (List.suffix_cons ..)
    exact ⟨hstep, h.later hstep, .of item creds, List.mem_cons_self .., rfl, hwho⟩
  · obtain ⟨before, hclear, hpre⟩ := h.1.next h.2
    have hstep := h.1.covered.record (overlap p b feed who i op) hclear
    exact ⟨hstep, hstep.covered, _, hstep.cleared hclear, hpre.trans hstep.feed⟩

theorem read_overlap (hb : GrowingFeed b p.settings.query feed) {path : PathId}
    {cursor : Option String} :
    (overlap p b feed who i op).Ensures (FromCursor feed who cursor)
      (Plan.one (.read path cursor p.settings.query)) fun r => match r with
        | .error _ => Covered feed who
        | .ok items => Ahead feed who items := by
  refine .read (fun _ _ => FromCursor.later) fun c r s h hr hs => ?_
  have hf : feed c.world.backend <+: feed s := hs ▸ hb.read path cursor c.world.backend
  have hstep := h.covered.act (overlap p b feed who i op) (.read path cursor p.settings.query) r
    { c.world with backend := s } (by simp) rfl hf (List.suffix_refl _)
  refine ⟨hstep, ?_⟩
  match r with
  | .error _ => exact hstep.covered
  | .ok items =>
    obtain ⟨front, hclear, rfl⟩ := h.front
    exact ⟨hstep.covered, front, hstep.cleared hclear, (hb.answer_after hclear.begins hr).trans hf⟩

theorem cursor_overlap :
    (overlap p b feed who i op).Ensures (Covered feed who) (Plan.one (.cursor who))
      (FromCursor feed who) := by
  refine .cursor (fun _ _ _ h => h.covered) fun c h => ?_
  have hstep := h.act (overlap p b feed who i op) (.cursor who) (c.world.history.cursor who)
    c.world (by simp) rfl (List.prefix_refl _) (List.suffix_refl _)
  refine ⟨hstep, hstep.covered, fun id hid => hstep.covered.remembered id ?_⟩
  exact History.mem_snapshot_of_mem_cursor hid

theorem poll_overlap (hb : GrowingFeed b p.settings.query feed) {creds : CredentialSet}
    (hwho : creds.identity = who) (path : PathId) (cursor : Option String) :
    (overlap p b feed who i op).Ensures (FromCursor feed who cursor)
      (p.poll path who cursor p.settings.query creds) fun _ => Covered feed who := by
  refine Poller.poll_ensures (S := Covered feed who) (R := Ahead feed who) (calm_covered hb)
    (fun _ => calm_covered hb) ((read_overlap hb).mono (fun _ h => h) fun r c h => ?_)
    (fun _ _ h => h) fun items => ?_
  · match r with
    | .error (.rateLimited _) => exact h
    | .error (.fetch _) => exact h
    | .ok _ => exact h
  · refine Poller.offer_ensures (R := fun items _ => Ahead feed who items)
      (O := fun item rest _ => Ahead feed who (item :: rest)) (fun _ _ h => h.covered)
      (fun item rest _ => isRepeated_overlap hb item rest)
      (fun item rest _ => deliver_overlap hwho item rest) items {}

theorem plan_overlap (hb : GrowingFeed b p.settings.query feed) (hop : op.PollsFor p who) :
    (overlap p b feed who i op).Ensures (Covered feed who) (op.plan p) fun _ => Covered feed who := by
  have hfrom : ∀ cursor, (overlap p b feed who i op).Calm (FromCursor feed who cursor) :=
    fun _ => calm_overlap hb (fun _ _ => FromCursor.later) fun _ h => h.covered
  exact Poller.pollsFor_ensures (E := fun _ => Covered feed who) hop (calm_covered hb) hfrom
    (fun _ => calm_covered hb) (fun _ _ _ _ h => h) (fun _ h => h) (fun _ _ h => h.covered)
    cursor_overlap fun _ path cursor hwho => poll_overlap hb hwho path cursor

/-! ## All interleavings -/

/-- Polls of one identity begin at any time, and at any time the feed may grow. -/
def overlapping (p : Poller) (b : Backend σ) (feed : σ → List Item) (who : Identity) : Rules p b where
  moves s s' := feed s <+: feed s'
  begins _ op := op.PollsFor p who

theorem Covered.meanwhile {c : Chronicle σ} {w : World σ} (h : Covered feed who c)
    (hw : Meanwhile (overlapping p b feed who).moves c.world w) :
    Advances feed who c { c with world := w } := by
  obtain ⟨hh, hs, -⟩ := hw.apart
  have hf : feed c.world.backend <+: feed w.backend := hw.feed_grows
  have ha : c.world.sink.accepted <:+ w.sink.accepted := hs ▸ List.suffix_refl _
  refine ⟨⟨fun id hid => h.remembered id (hh ▸ hid), fun id hid => ?_⟩, hf, ha, List.prefix_refl _⟩
  obtain ⟨before, item, hclear, hitem⟩ := h.recorded id hid
  exact ⟨before, item, hclear.later hf ha, hitem⟩

theorem together_overlapping (hb : GrowingFeed b p.settings.query feed) :
    Together (overlapping p b feed who) (Advances feed who) (Covered feed who) where
  refl _ h := ⟨h, List.prefix_refl _, List.suffix_refl _, List.prefix_refl _⟩
  trans _ _ _ := Advances.trans
  kept _ _ := Advances.covered
  world _ _ h := h.meanwhile
  begin c _ hop h := (plan_overlap hb hop c.toChronicle h).mono fun _ _ _ => trivial

/-- The feed has the id, and everything up to it was delivered. -/
def DeliveredUpTo (feed : σ → List Item) (who : Identity) (w : World σ) (id : String) : Prop :=
  ∃ before item after, feed w.backend = before ++ item :: after ∧ item.id = id ∧
    ∀ x ∈ before ++ [item], Delivered who w x

theorem Covered.deliveredUpTo {c : Chronicle σ} (h : Covered feed who c) {id : String}
    (hid : c.Recorded who id) : DeliveredUpTo feed who c.world id := by
  obtain ⟨before, item, hclear, hitem⟩ := h.recorded id hid
  obtain ⟨after, hfeed⟩ := hclear.begins
  exact ⟨before, item, after, by rw [← hfeed]; simp, hitem, hclear.delivered⟩

/-- Up to whatever was ever recorded, and so up to the cursor, no item is lost. -/
theorem delivered_up_to_recorded (hb : GrowingFeed b p.settings.query feed) {rule : Sink.Rule} {s : σ}
    {c : Course σ} (h : (overlapping p b feed who).Reached rule s c) :
    (∀ id, c.Recorded who id → DeliveredUpTo feed who c.world id) ∧
      ∀ id ∈ c.world.history.cursor who, DeliveredUpTo feed who c.world id := by
  obtain ⟨w, hw, hl⟩ := h
  obtain ⟨-, backend, rfl⟩ := World.init_eq_ok hw
  have hstart : Covered feed who { world := {
      backend, history := .new p.settings.maxHistory p.settings.skipDuplicates, sink := { rule } } } :=
    ⟨by simp [History.snapshot_new], by simp [Chronicle.Recorded, Chronicle.records]⟩
  obtain ⟨hc, -⟩ := (together_overlapping hb).holds hl hstart
  exact ⟨fun id hid => hc.deliveredUpTo hid, fun id hid =>
    hc.deliveredUpTo (hc.remembered id (History.mem_snapshot_of_mem_cursor hid))⟩

/-- Two cycles read the same two items. The first records both before the second records one, and the
cursor goes back. -/
def overtaken : Course Shelf :=
  [0, 0, 0, 0, 1, 1, 1, 1, 0, 1, 0, 1, 0, 0, 0, 0, 1].foldl (Course.act Shelf.reader Shelf.backend)
    (((Shelf.start Shelf.reader .acceptAll .twoItems).begin Shelf.reader .cycle).begin Shelf.reader .cycle)

theorem overtaken_delivered_up_to :
    (overlapping Shelf.reader Shelf.backend Subtype.val .shared).Reached .acceptAll .twoItems
        overtaken ∧
      overtaken.Recorded .shared "b" ∧ overtaken.world.history.cursor .shared = some "a" ∧
      DeliveredUpTo Subtype.val .shared overtaken.world "b" := by
  have hcycle : Operation.cycle.PollsFor Shelf.reader .shared := ⟨rfl, by simp⟩
  have h : (overlapping Shelf.reader Shelf.backend Subtype.val .shared).Reached .acceptAll .twoItems
      overtaken :=
    ⟨_, rfl, ((Rules.Later.refl.begin hcycle).begin hcycle).turns _⟩
  have hrecorded : overtaken.Recorded .shared "b" := by
    have hrecords : overtaken.records = [(.shared, "a"), (.shared, "b"), (.shared, "a")] := rfl
    simp [Chronicle.Recorded, hrecords]
  obtain ⟨hdelivered, -⟩ := delivered_up_to_recorded (Shelf.growingFeed _) h
  exact ⟨h, hrecorded, rfl, hdelivered "b" hrecorded⟩

end FeedPoller
