import FeedPoller.Proofs.InOrder

/-! Polls and updates of one identity, one after another, on a feed to which an update adds its item.
What an update gives is remembered like what was read, so the next poll goes on behind it. After a poll
all that was there at its read has been accepted, but for what an own item was put behind before it was
polled; and such items can be lost. -/

namespace FeedPoller

variable {σ : Type} {p : Poller} {b : Backend σ} {feed : σ → List Item} {who : Identity}

/-- A growing feed that gives all there is after a cursor, and to the end of which an accepted update
adds its item. -/
structure PostedFeed (b : Backend σ) (query : Json.Fields) (feed : σ → List Item) : Prop
    extends GrowingFeed b query feed where
  whole : ∀ path cursor s items, (∀ id ∈ cursor, id ∈ ids (feed s)) →
    (b.read path cursor query s).1.value = .ok items → items = itemsAfter (feed s) cursor
  update : ∀ path payload headers s, feed s <+: feed (b.update path payload headers s).2
  posted : ∀ path payload headers s item,
    (b.update path payload headers s).1.value = .ok (some item) →
    feed s ++ [item] <+: feed (b.update path payload headers s).2

/-- An operation for an identity that overrides neither cursor nor parameters. It may poll, make an
update, or do one after the other. -/
def Operation.GoesOnFor (p : Poller) (who : Identity) (op : Operation) : Prop :=
  op.identity p = who ∧ ∀ c, op = .command c → c.cursor = none ∧ c.params = none

/-- Such operations, each of which begins when those before it are done. At any time the feed may
grow. -/
def posting (p : Poller) (b : Backend σ) (feed : σ → List Item) (who : Identity) : Rules p b where
  moves s s' := feed s <+: feed s'
  begins c op := c.Idle ∧ op.GoesOnFor p who

/-- There, and not accepted, when an update added its item behind it; and that item was accepted. -/
def PassedOver (feed : σ → List Item) (c : Chronicle σ) (x : Item) : Prop :=
  ∃ i op w w' path payload headers d,
    (⟨i, op, w, .update path payload headers, .ok (some d.item)⟩ : Entry σ) ∈ c.log ∧
    (⟨i, op, w', .dispatch d, .ok ()⟩ : Entry σ) ∈ c.log ∧ x ∈ feed w.backend ∧ x ∉ w.handed

/-! ## Stages of an operation -/

/-- How the feed begins, up to the item accepted last: all of it was accepted or passed over. The
`recorded` items are in the history. -/
structure Level (feed : σ → List Item) (who : Identity) (recorded front rest : List Item)
    (c : Chronicle σ) : Prop where
  booked : Booked who recorded c.world.history
  begins : front ++ rest <+: feed c.world.backend
  newest : (ids front).getLast? = (ids c.world.handed).getLast?
  handed : c.world.handed ⊆ front
  past : ∀ x ∈ front, x ∈ c.world.handed ∨ PassedOver feed c x

/-- All that was there when the operation read. -/
def ReadsWithin (feed : σ → List Item) (i : Nat) (op : Operation) (items : List Item)
    (c : Chronicle σ) : Prop :=
  ∀ w path cursor params r,
    (⟨i, op, w, .read path cursor params, .ok r⟩ : Entry σ) ∈ c.log → feed w.backend <+: items

/-- While the rest of what was read comes next in the feed. -/
def Going (feed : σ → List Item) (who : Identity) (i : Nat) (op : Operation) (rest : List Item)
    (c : Chronicle σ) : Prop :=
  ∃ front, Level feed who c.world.handed front rest c ∧ ReadsWithin feed i op (front ++ rest) c

/-- Before the read, with the cursor at hand. -/
def Aimed (feed : σ → List Item) (who : Identity) (i : Nat) (op : Operation) (cursor : Option String)
    (c : Chronicle σ) : Prop :=
  ∃ front, Level feed who c.world.handed front [] c ∧ ReadsWithin feed i op front c ∧
    cursor = (ids front).getLast?

/-- While one item is accepted and not yet recorded. -/
def Taking (feed : σ → List Item) (who : Identity) (i : Nat) (op : Operation) (item : Item)
    (rest : List Item) (c : Chronicle σ) : Prop :=
  ∃ recorded front, c.world.handed = recorded ++ [item] ∧ Level feed who recorded front rest c ∧
    ReadsWithin feed i op (front ++ rest) c

/-- While the item of an update is about to be offered. -/
def Posted (feed : σ → List Item) (who : Identity) (i : Nat) (op : Operation) (item : Item)
    (c : Chronicle σ) : Prop :=
  ∃ front w path payload headers, Level feed who c.world.handed front [] c ∧
    ReadsWithin feed i op front c ∧
    (⟨i, op, w, .update path payload headers, .ok (some item)⟩ : Entry σ) ∈ c.log ∧
    w.handed = c.world.handed ∧ front <+: feed w.backend ∧
    feed w.backend ++ [item] <+: feed c.world.backend

/-- At the end; `ok` tells whether it is a good one. -/
def Finished (feed : σ → List Item) (who : Identity) (i : Nat) (op : Operation) (ok : Prop)
    (c : Chronicle σ) : Prop :=
  ∃ front, Level feed who c.world.handed front [] c ∧ (ok → ReadsWithin feed i op front c)

/-! ## What leaves a stage as it is -/

variable {i : Nat} {op : Operation}

/-- As it was, except that the feed may have grown, and other things than reads were done. -/
structure Undisturbed (feed : σ → List Item) (c c' : Chronicle σ) : Prop
    extends Keeps feed c c' where
  log : c.log ⊆ c'.log

def Stays (feed : σ → List Item) (P : Assertion σ) : Prop := ∀ c c', P c → Undisturbed feed c c' → P c'

theorem PassedOver.later {c c' : Chronicle σ} {x : Item} (h : PassedOver feed c x)
    (hlog : c.log ⊆ c'.log) : PassedOver feed c' x := by
  obtain ⟨i, op, w, w', path, payload, headers, d, hupdate, hdispatch, hx⟩ := h
  exact ⟨i, op, w, w', path, payload, headers, d, hlog hupdate, hlog hdispatch, hx⟩

theorem Level.past_later {recorded front rest : List Item} {c c' : Chronicle σ}
    (h : Level feed who recorded front rest c) (hlog : c.log ⊆ c'.log) :
    ∀ x ∈ front, x ∈ c.world.handed ∨ PassedOver feed c' x := by
  intro x hx
  obtain hhanded | hpassed := h.past x hx
  · exact .inl hhanded
  · exact .inr (hpassed.later hlog)

theorem Level.stays {recorded front rest : List Item} {c c' : Chronicle σ}
    (h : Level feed who recorded front rest c) (hu : Undisturbed feed c c') :
    Level feed who recorded front rest c' := by
  refine ⟨hu.history ▸ h.booked, h.begins.trans hu.feed, ?_, ?_, ?_⟩
  · rw [hu.handed]
    exact h.newest
  · rw [hu.handed]
    exact h.handed
  · rw [hu.handed]
    exact h.past_later hu.log

theorem ReadsWithin.later {items : List Item} {c c' : Chronicle σ} (h : ReadsWithin feed i op items c)
    (hr : SameReads c c') : ReadsWithin feed i op items c' :=
  fun w path cursor params r he => h w path cursor params r (hr.mem he)

theorem ReadsWithin.mono {items items' : List Item} {c : Chronicle σ}
    (h : ReadsWithin feed i op items c) (hi : items <+: items') : ReadsWithin feed i op items' c :=
  fun w path cursor params r he => (h w path cursor params r he).trans hi

theorem Going.stays {rest : List Item} : Stays feed (Going feed who i op rest) := by
  rintro c c' ⟨front, hlevel, hreads⟩ hu
  exact ⟨front, hu.handed ▸ hlevel.stays hu, hreads.later hu.reads⟩

theorem Aimed.stays {cursor : Option String} : Stays feed (Aimed feed who i op cursor) := by
  rintro c c' ⟨front, hlevel, hreads, hcursor⟩ hu
  exact ⟨front, hu.handed ▸ hlevel.stays hu, hreads.later hu.reads, hcursor⟩

theorem Taking.stays {item : Item} {rest : List Item} :
    Stays feed (Taking feed who i op item rest) := by
  rintro c c' ⟨recorded, front, hhanded, hlevel, hreads⟩ hu
  exact ⟨recorded, front, hu.handed.trans hhanded, hlevel.stays hu, hreads.later hu.reads⟩

theorem Posted.stays {item : Item} : Stays feed (Posted feed who i op item) := by
  rintro c c' ⟨front, w, path, payload, headers, hlevel, hreads, hupdate, hhanded, hfront, hposted⟩ hu
  exact ⟨front, w, path, payload, headers, hu.handed ▸ hlevel.stays hu, hreads.later hu.reads,
    hu.log hupdate, hhanded.trans hu.handed.symm, hfront, hposted.trans hu.feed⟩

theorem Finished.stays {ok : Prop} : Stays feed (Finished feed who i op ok) := by
  rintro c c' ⟨front, hlevel, hreads⟩ hu
  exact ⟨front, hu.handed ▸ hlevel.stays hu, fun hok => (hreads hok).later hu.reads⟩

theorem Level.settled {recorded front rest : List Item} {c : Chronicle σ}
    (h : Level feed who recorded front rest c) : Level feed who recorded front [] c := by
  refine ⟨h.booked, ?_, h.newest, h.handed, h.past⟩
  rw [List.append_nil]
  exact (List.prefix_append ..).trans h.begins

theorem Going.finished {ok : Prop} {c : Chronicle σ} (h : Going feed who i op [] c) :
    Finished feed who i op ok c := by
  obtain ⟨front, hlevel, hreads⟩ := h
  refine ⟨front, hlevel, fun _ => ?_⟩
  rwa [List.append_nil] at hreads

theorem Aimed.finished {cursor : Option String} {ok : Prop} {c : Chronicle σ}
    (h : Aimed feed who i op cursor c) : Finished feed who i op ok c := by
  obtain ⟨front, hlevel, hreads, -⟩ := h
  exact ⟨front, hlevel, fun _ => hreads⟩

theorem Finished.failed {ok : Prop} {c : Chronicle σ} (h : Finished feed who i op False c)
    (hok : ¬ ok) : Finished feed who i op ok c := by
  obtain ⟨front, hlevel, -⟩ := h
  exact ⟨front, hlevel, fun ho => absurd ho hok⟩

/-! ## Steps of an operation -/

/-- The terms of the operation that has the turn; what it does is told by the stages alone. -/
abbrev posts (p : Poller) (b : Backend σ) (feed : σ → List Item) (who : Identity) (i : Nat)
    (op : Operation) : Terms p b := (posting p b feed who).turn (fun _ _ _ _ => True) i op

open Terms

theorem Undisturbed.meanwhile {c : Chronicle σ} {w : World σ}
    (hw : Meanwhile (posting p b feed who).moves c.world w) :
    Undisturbed feed c { c with world := w } := by
  obtain ⟨hh, hs, -⟩ := hw.apart
  have hkeeps : Keeps feed c { c with world := w } :=
    ⟨hh, by simp [World.handed, hs], hw.feed_grows, fun e he => .inl he⟩
  exact ⟨hkeeps, List.Subset.refl _⟩

/-- After an action that is no read, delivers nothing and records nothing. -/
theorem Undisturbed.after (T : Terms p b) {c : Chronicle σ} {action : Action} (reply : action.Reply)
    {w : World σ} (haction : ∀ path cursor params, action ≠ .read path cursor params)
    (hh : w.history = c.world.history) (hs : w.handed = c.world.handed)
    (hf : feed c.world.backend <+: feed w.backend) : Undisturbed feed c (T.after c action reply w) :=
  ⟨⟨hh, hs, hf, .cons haction⟩, List.subset_cons_self ..⟩

theorem Stays.lasts {P : Assertion σ} (hP : Stays feed P) : (posts p b feed who i op).Lasts P :=
  Rules.lasts_turn fun c _ h hw => hP c _ h (.meanwhile hw)

theorem Stays.calm (hb : PostedFeed b p.settings.query feed) {P : Assertion σ} (hP : Stays feed P) :
    (posts p b feed who i op).Calm P where
  lasts := hP.lasts
  aside c action ha h := by
    have hhanded : World.handed (c.world.perform p b action).2 = c.world.handed := by
      rw [World.handed, World.sink_perform c.world ha.ne_dispatch]
      rfl
    exact ⟨trivial, hP c _ h (.after (posts p b feed who i op) _ ha.ne_read
      (World.history_perform c.world ha.ne_record) hhanded (hb.perform_isAside c.world ha))⟩

theorem cursor_posts :
    (posts p b feed who i op).Ensures (Going feed who i op []) (Plan.one (.cursor who))
      (Aimed feed who i op) := by
  refine .cursor Going.stays.lasts ?_
  intro c h
  refine ⟨trivial, ?_⟩
  obtain ⟨front, hlevel, hreads⟩ := h
  have hu : Undisturbed feed c ((posts p b feed who i op).after c (.cursor who)
      (c.world.history.cursor who) c.world) :=
    .after (posts p b feed who i op) _ (by simp) rfl rfl (List.prefix_refl _)
  rw [List.append_nil] at hreads
  refine ⟨front, hlevel.stays hu, hreads.later hu.reads, ?_⟩
  rw [hlevel.booked.cursor, hlevel.newest]

theorem read_posts (hb : PostedFeed b p.settings.query feed) {path : PathId}
    {cursor : Option String} :
    (posts p b feed who i op).Ensures (Aimed feed who i op cursor)
      (Plan.one (.read path cursor p.settings.query)) fun r => match r with
        | .error _ => Going feed who i op []
        | .ok items => Going feed who i op items := by
  refine .read Aimed.stays.lasts ?_
  intro c r s h hr hs
  refine ⟨trivial, ?_⟩
  obtain ⟨front, hlevel, hreads, rfl⟩ := h
  have hf : feed c.world.backend <+: feed s := hs ▸ hb.read path _ c.world.backend
  have hfront : front <+: feed c.world.backend := by
    have hbegins := hlevel.begins
    rwa [List.append_nil] at hbegins
  have hmore : ∀ rest, front ++ rest <+: feed s → Level feed who c.world.handed front rest
      ((posts p b feed who i op).after c (.read path (ids front).getLast? p.settings.query) r
        { c.world with backend := s }) := by
    intro rest hrest
    exact ⟨hlevel.booked, hrest, hlevel.newest, hlevel.handed,
      hlevel.past_later (List.subset_cons_self ..)⟩
  match r with
  | .error e =>
    have hrest : front ++ [] <+: feed s := by
      rw [List.append_nil]
      exact hfront.trans hf
    refine ⟨front, hmore [] hrest, ?_⟩
    rw [List.append_nil]
    intro w path' cursor' params' items he
    rcases List.mem_cons.mp he with he | he
    · cases he
    · exact hreads w path' cursor' params' items he
  | .ok items =>
    have hcursor : ∀ id ∈ (ids front).getLast?, id ∈ ids (feed c.world.backend) := by
      intro id hid
      exact (hfront.map _).subset (List.mem_of_getLast? hid)
    obtain rfl := hb.whole path _ _ items hcursor hr
    have hall := append_itemsAfter (hb.distinct _) hfront
    refine ⟨front, hmore _ (hall.symm ▸ hf), ?_⟩
    intro w path' cursor' params' items he
    rcases List.mem_cons.mp he with he | he
    · cases he
      exact ⟨[], (List.append_nil _).trans hall.symm⟩
    · exact (hreads w path' cursor' params' items he).trans (List.prefix_append ..)

/-- An item that comes next is not among the remembered ones. -/
theorem Level.not_seen (hb : PostedFeed b p.settings.query feed) {front rest : List Item}
    {item : Item} {c : Chronicle σ} (h : Level feed who c.world.handed front (item :: rest) c) :
    c.world.history.seen who item.id = false := by
  refine h.booked.not_seen ?_
  intro hmem
  obtain ⟨x, hx, hid⟩ := List.mem_map.mp hmem
  have hids : ids (front ++ item :: rest) <+: ids (feed c.world.backend) := h.begins.map _
  have hdistinct := hids.sublist.nodup (hb.distinct _)
  rw [ids, List.map_append, List.nodup_append] at hdistinct
  exact hdistinct.2.2 _ (List.mem_map_of_mem (h.handed hx)) item.id (by simp) hid

theorem isRepeated_posts (hb : PostedFeed b p.settings.query feed)
    (hskip : p.settings.skipDuplicates = true) (item : Item) (rest : List Item) :
    (posts p b feed who i op).Ensures (Going feed who i op (item :: rest))
      (p.isRepeated who item.id) fun repeated => if repeated = true then Going feed who i op rest
        else Going feed who i op (item :: rest) := by
  rw [Poller.isRepeated, if_pos hskip]
  refine .seen Going.stays.lasts ?_
  intro c h
  refine ⟨trivial, ?_⟩
  have hafter : Going feed who i op (item :: rest) ((posts p b feed who i op).after c
      (.seen who item.id) (c.world.history.seen who item.id) c.world) :=
    Going.stays c _ h (.after (posts p b feed who i op) _ (by simp) rfl rfl (List.prefix_refl _))
  obtain ⟨front, hlevel, -⟩ := h
  rw [hlevel.not_seen hb] at hafter ⊢
  exact hafter

/-- Once an item is accepted, the front ends at it. -/
theorem Level.accepted (T : Terms p b) {c : Chronicle σ} {front rest : List Item} {item : Item}
    {creds : CredentialSet} (hbooked : Booked who c.world.handed c.world.history)
    (hbegins : front ++ item :: rest <+: feed c.world.backend) (hhanded : c.world.handed ⊆ front)
    (hpast : ∀ x ∈ front, x ∈ c.world.handed ∨
      PassedOver feed (T.after c (.dispatch (.of item creds)) (.ok ())
        { c.world with sink := c.world.sink.keep (.of item creds) }) x) :
    Level feed who c.world.handed (front ++ [item]) rest
      (T.after c (.dispatch (.of item creds)) (.ok ())
        { c.world with sink := c.world.sink.keep (.of item creds) }) := by
  have hkeep : (T.after c (.dispatch (.of item creds)) (.ok ())
      { c.world with sink := c.world.sink.keep (.of item creds) }).world.handed =
        c.world.handed ++ [item] := c.world.handed_keep item creds
  refine ⟨hbooked, ?_, ?_, ?_, ?_⟩
  · rw [List.append_assoc]
    exact hbegins
  · rw [hkeep]
    simp [ids]
  · rw [hkeep]
    exact List.append_subset.mpr
      ⟨fun x hx => List.mem_append_left _ (hhanded hx), fun x hx => List.mem_append_right _ hx⟩
  · intro x hx
    rw [hkeep]
    rcases List.mem_append.mp hx with hx | hx
    · obtain hhanded | hpassed := hpast x hx
      · exact .inl (List.mem_append_left _ hhanded)
      · exact .inr hpassed
    · exact .inl (List.mem_append_right _ hx)

theorem record_posts {item : Item} {rest : List Item} :
    (posts p b feed who i op).Ensures (Taking feed who i op item rest)
      (Plan.one (.record who item.id)) fun _ => Going feed who i op rest := by
  refine .record Taking.stays.lasts ?_
  intro c h
  refine ⟨trivial, ?_⟩
  obtain ⟨recorded, front, hhanded, hlevel, hreads⟩ := h
  refine ⟨front, ⟨?_, hlevel.begins, hlevel.newest, hlevel.handed,
    hlevel.past_later (List.subset_cons_self ..)⟩, hreads.later (.cons (by simp))⟩
  change Booked who c.world.handed (c.world.history.record who item.id)
  rw [hhanded]
  exact hlevel.booked.record item

theorem Undisturbed.refused (T : Terms p b) (c : Chronicle σ) (d : Delivery) (reason : String) :
    Undisturbed feed c
      (T.after c (.dispatch d) (.error reason) { c.world with sink := c.world.sink.noted }) :=
  .after T _ (by simp) rfl rfl (List.prefix_refl _)

theorem deliver_posts {creds : CredentialSet} (item : Item) (rest : List Item) :
    (posts p b feed who i op).Ensures (Going feed who i op (item :: rest))
      (Poller.deliver who creds item) fun r => match r with
        | .error _ => Finished feed who i op False
        | .ok () => Going feed who i op rest := by
  refine Poller.deliver_ensures (D := Taking feed who i op item rest)
    (.dispatch Going.stays.lasts ?_ ?_) record_posts
  · intro c reason h
    refine ⟨trivial, ?_⟩
    obtain ⟨front, hlevel, -⟩ := Going.stays c _ h (.refused (posts p b feed who i op) c _ reason)
    exact ⟨front, hlevel.settled, False.elim⟩
  · intro c h
    refine ⟨trivial, ?_⟩
    obtain ⟨front, hlevel, hreads⟩ := h
    refine ⟨c.world.handed, front ++ [item], c.world.handed_keep item creds, ?_, ?_⟩
    · exact .accepted _ hlevel.booked hlevel.begins hlevel.handed
        (hlevel.past_later (List.subset_cons_self ..))
    · rw [List.append_assoc]
      exact hreads.later (.cons (by simp))

theorem poll_posts (hb : PostedFeed b p.settings.query feed)
    (hskip : p.settings.skipDuplicates = true) (creds : CredentialSet) (path : PathId)
    (cursor : Option String) :
    (posts p b feed who i op).Ensures (Aimed feed who i op cursor)
      (p.poll path who cursor p.settings.query creds) fun r => match r with
        | .error _ => Finished feed who i op False
        | .ok _ => Going feed who i op [] := by
  refine Poller.poll_ensures (S := Going feed who i op []) (R := Going feed who i op)
    (Going.stays.calm hb) ?_ ((read_posts hb).mono (fun _ h => h) ?_) (fun _ _ h => h) ?_
  · intro r
    cases r with
    | error e => exact Finished.stays.calm hb
    | ok report => exact Going.stays.calm hb
  · intro r c h
    match r with
    | .error (.rateLimited _) => exact h
    | .error (.fetch _) => exact h.finished
    | .ok _ => exact h
  · intro items
    refine Poller.offer_ensures (R := fun items _ => Going feed who i op items)
      (O := fun item rest _ => Going feed who i op (item :: rest)) (fun _ _ h => h)
      (fun item rest _ => isRepeated_posts hb hskip item rest) ?_ items {}
    intro item rest _
    refine (deliver_posts item rest).mono (fun _ h => h) ?_
    intro r c h
    match r with
    | .error _ => exact h
    | .ok () => exact h

/-! ## Updates -/

theorem update_posts (hb : PostedFeed b p.settings.query feed) {path : PathId}
    {payload : Json.Value} {headers : Json.Fields} :
    (posts p b feed who i op).Ensures (Going feed who i op [])
      (Plan.one (.update path payload headers)) fun r : Except FetchFailure (Option Item) =>
        match r with
        | .ok (some item) => Posted feed who i op item
        | _ => Going feed who i op [] := by
  refine .update Going.stays.lasts ?_
  intro c r s h hr hs
  refine ⟨trivial, ?_⟩
  have hf : feed c.world.backend <+: feed s := hs ▸ hb.update path payload headers c.world.backend
  have hu : Undisturbed feed c ((posts p b feed who i op).after c (.update path payload headers) r
      { c.world with backend := s }) := .after (posts p b feed who i op) _ (by simp) rfl rfl hf
  match r with
  | .error _ => exact Going.stays c _ h hu
  | .ok none => exact Going.stays c _ h hu
  | .ok (some item) =>
    have hposted := hb.posted path payload headers c.world.backend item hr
    rw [hs] at hposted
    obtain ⟨front, hlevel, hreads⟩ := h
    have hfront := hlevel.begins
    rw [List.append_nil] at hreads hfront
    exact ⟨front, c.world, path, payload, headers, hlevel.stays hu, hreads.later hu.reads,
      List.mem_cons_self .., rfl, hfront, hposted⟩

/-- With the item of an update the front comes to include all that it was put behind. -/
theorem deliverPosted_posts {creds : CredentialSet} (item : Item) :
    (posts p b feed who i op).Ensures (Posted feed who i op item) (Poller.deliver who creds item)
      fun r => match r with
        | .error _ => Finished feed who i op False
        | .ok () => Going feed who i op [] := by
  refine Poller.deliver_ensures (D := Taking feed who i op item [])
    (.dispatch Posted.stays.lasts ?_ ?_) record_posts
  · intro c reason h
    refine ⟨trivial, ?_⟩
    obtain ⟨front, w, path, payload, headers, hlevel, -⟩ :=
      Posted.stays c _ h (.refused (posts p b feed who i op) c _ reason)
    exact ⟨front, hlevel, False.elim⟩
  · intro c h
    refine ⟨trivial, ?_⟩
    obtain ⟨front, w, path, payload, headers, hlevel, hreads, hupdate, hhanded, hfront, hposted⟩ := h
    refine ⟨c.world.handed, feed w.backend ++ [item], c.world.handed_keep item creds, ?_, ?_⟩
    · refine .accepted _ hlevel.booked hposted (fun x hx => hfront.subset (hlevel.handed hx)) ?_
      intro x hx
      by_cases hold : x ∈ c.world.handed
      · exact .inl hold
      · rw [← hhanded] at hold
        exact .inr ⟨i, op, w, c.world, path, payload, headers, .of item creds,
          List.mem_cons_of_mem _ hupdate, List.mem_cons_self .., hx, hold⟩
    · rw [List.append_nil]
      exact (hreads.mono (hfront.trans (List.prefix_append ..))).later (.cons (by simp))

theorem submit_posts (hb : PostedFeed b p.settings.query feed) {creds : CredentialSet}
    {path : PathId} {payload : Option Json.Value} {headers : Json.Fields} :
    (posts p b feed who i op).Ensures (Going feed who i op [])
      (Poller.submit path who payload headers creds) fun r => match r with
        | .error _ => Finished feed who i op False
        | .ok _ => Going feed who i op [] := by
  refine Poller.submit_ensures (U := Posted feed who i op) (Going.stays.calm hb) ?_ (fun _ h => h)
    (fun payload => update_posts hb) ?_
  · intro r
    cases r with
    | error e => exact Finished.stays.calm hb
    | ok updated => exact Going.stays.calm hb
  · intro item
    refine (deliverPosted_posts item).mono (fun _ h => h) ?_
    intro r c h
    match r with
    | .error _ => exact h
    | .ok () => exact h

/-! ## Whole operations -/

theorem runCycle_posts (hb : PostedFeed b p.settings.query feed)
    (hskip : p.settings.skipDuplicates = true) (hwho : p.background.identity = who) :
    (posts p b feed who i op).Ensures (Going feed who i op []) p.runCycle
      fun r => Finished feed who i op (Outcome.cycle r).IsOk := by
  refine Poller.runCycle_ensures (C := Aimed feed who i op) (Going.stays.calm hb)
    (fun _ => Aimed.stays.calm hb) (fun _ => Finished.stays.calm hb) (fun _ h => h.finished)
    (fun _ h => h.finished) (fun _ _ _ h => h.finished) (hwho ▸ cursor_posts) ?_
  intro cursor
  rw [hwho]
  refine (poll_posts hb hskip p.background backgroundPath cursor).mono (fun _ h => h) ?_
  intro r c h
  match r with
  | .error e => exact h.failed (by simp [Outcome.IsOk])
  | .ok report => exact h.finished

theorem commandPoll_posts (hb : PostedFeed b p.settings.query feed)
    (hskip : p.settings.skipDuplicates = true) {creds : CredentialSet} {path : PathId} {c : Command}
    (hcursor : c.cursor = none) (hparams : c.params = none) :
    (posts p b feed who i op).Ensures (Going feed who i op []) (p.commandPoll path who creds c)
      fun r => match r with
        | .error _ => Finished feed who i op False
        | .ok _ => Going feed who i op [] := by
  refine Poller.commandPoll_ensures (C := Aimed feed who i op) (fun _ h => h) ?_ ?_
  · rw [Poller.startOf, hcursor]
    exact cursor_posts
  · intro cursor
    rw [hparams]
    refine (poll_posts hb hskip creds path cursor).mono (fun _ h => h) ?_
    intro r c h
    cases r with
    | error e => exact h
    | ok report => exact h

theorem commandUpdate_posts (hb : PostedFeed b p.settings.query feed) {creds : CredentialSet}
    {path : PathId} {c : Command} :
    (posts p b feed who i op).Ensures (Going feed who i op [])
      (Poller.commandUpdate path who creds c) fun r => match r with
        | .error _ => Finished feed who i op False
        | .ok _ => Going feed who i op [] := by
  refine Poller.commandUpdate_ensures (fun _ h => h) ?_
  intro _
  refine (submit_posts hb).mono (fun _ h => h) ?_
  intro r c h
  cases r with
  | error e => exact h
  | ok updated => exact h

theorem handle_posts (hb : PostedFeed b p.settings.query feed)
    (hskip : p.settings.skipDuplicates = true) {c : Command}
    (hwho : (p.credentialsOf c).identity = who) (hcursor : c.cursor = none)
    (hparams : c.params = none) :
    (posts p b feed who i op).Ensures (Going feed who i op []) (p.handle c)
      fun r => Finished feed who i op (Outcome.command r).IsOk := by
  refine Poller.handle_ensures (M := fun _ => Going feed who i op []) (Going.stays.calm hb)
    (fun _ => Finished.stays.calm hb) (fun _ h => h.finished) (fun _ _ h => h.finished) ?_ ?_
  · intro path
    rw [hwho]
    refine (commandPoll_posts hb hskip hcursor hparams).mono (fun _ h => h) ?_
    intro r c h
    cases r with
    | error e => exact h.failed (by simp [Outcome.IsOk])
    | ok poll => exact h
  · intro path poll
    rw [hwho]
    refine (commandUpdate_posts hb).mono (fun _ h => h) ?_
    intro r c h
    cases r with
    | error e => exact h.failed (by simp [Outcome.IsOk, Except.map])
    | ok updated => exact h.finished

theorem plan_posts (hb : PostedFeed b p.settings.query feed)
    (hskip : p.settings.skipDuplicates = true) (hop : op.GoesOnFor p who) :
    (posts p b feed who i op).Ensures (Going feed who i op []) (op.plan p)
      fun outcome => Finished feed who i op outcome.IsOk := by
  refine Poller.plan_ensures (Going.stays.calm hb) (fun _ h => h.finished) ?_ ?_
  · intro hcycle
    have hwho : p.background.identity = who := by
      obtain rfl | rfl := hcycle <;> exact hop.1
    exact runCycle_posts hb hskip hwho
  · rintro c rfl
    obtain ⟨hcursor, hparams⟩ := hop.2 c rfl
    exact handle_posts hb hskip hop.1 hcursor hparams

theorem inTurn_posting (hb : PostedFeed b p.settings.query feed)
    (hskip : p.settings.skipDuplicates = true) :
    InTurn (posting p b feed who) (fun _ _ _ _ => True)
      (fun i op outcome => Finished feed who i op outcome.IsOk)
      (fun c => ∃ front, Level feed who c.world.handed front [] c) (fun _ => True) where
  turns _ _ h := h.1
  worldJ c w h hw := by
    obtain ⟨front, hlevel⟩ := h
    have hu : Undisturbed feed c { c with world := w } := .meanwhile hw
    exact ⟨front, hu.handed ▸ hlevel.stays hu⟩
  worldK _ _ h _ := h
  worldPost _ _ _ c _ h hw := Finished.stays c _ h (.meanwhile hw)
  kept _ _ _ _ _ h := h
  begin c op h hn hlevel := by
    obtain ⟨front, hlevel⟩ := hlevel
    refine plan_posts hb hskip h.2 c.toChronicle ⟨front, hlevel, ?_⟩
    intro w path cursor params r he
    exact absurd (hn _ he) (Nat.lt_irrefl _)
  done _ _ _ _ h := by
    obtain ⟨front, hlevel, -⟩ := h
    exact ⟨front, hlevel⟩

/-- About an operation that is just done, reports no failure and had read in the world `w`. -/
theorem delivered_or_passed_over (hb : PostedFeed b p.settings.query feed)
    (hskip : p.settings.skipDuplicates = true) {rule : Sink.Rule} {s : σ} {c : Course σ}
    (h : (posting p b feed who).Reached rule s c) {earlier : List Task} {op : Operation}
    {outcome : Outcome} (htasks : c.tasks = earlier ++ [⟨op, .done outcome⟩]) (hok : outcome.IsOk)
    {w : World σ} {path : PathId} {cursor : Option String} {params : Json.Fields} {items : List Item}
    (hread : (⟨earlier.length, op, w, .read path cursor params, .ok items⟩ : Entry σ) ∈ c.log) :
    ∀ x ∈ feed w.backend, x ∈ c.world.handed ∨ PassedOver feed c.toChronicle x := by
  obtain ⟨w₀, hw, hl⟩ := h
  obtain ⟨-, backend, rfl⟩ := World.init_eq_ok hw
  rw [hskip] at hl
  have hstart : ∃ front, Level feed who [] front [] ({ world := {
      backend, history := .new p.settings.maxHistory true, sink := { rule } } } : Chronicle σ) :=
    ⟨[], ⟨⟨rfl, List.suffix_refl _, rfl⟩, List.nil_prefix, rfl, List.Subset.refl _, by simp⟩⟩
  have hgood := (inTurn_posting hb hskip).holds hl hstart trivial
  obtain ⟨front, hlevel, hreads⟩ := hgood.last htasks
  intro x hx
  exact hlevel.past x ((hreads hok w path cursor params items hread).subset hx)

/-! ## An item that is lost -/

namespace Shelf

/-- Puts up an item at the end, unless there is one with its id. -/
def put (item : Item) (s : Shelf) : Option Item × Shelf :=
  if h : item.id ∈ ids s.val then (none, s)
  else
    (some item, ⟨s.val ++ [item], by
      have hnew : ∀ x ∈ s.val, x.id ≠ item.id := fun x hx hid => h (hid ▸ List.mem_map_of_mem hx)
      have hold : (s.val.map (·.id)).Nodup := s.property
      simpa [ids, List.nodup_append, hold] using hnew⟩)

theorem prefix_put (item : Item) (s : Shelf) : s.val <+: (s.put item).2.val := by
  unfold put
  split
  · exact List.prefix_refl _
  · exact List.prefix_append ..

theorem put_eq_some {item posted : Item} {s : Shelf} (h : (s.put item).1 = some posted) :
    (s.put item).2.val = s.val ++ [posted] := by
  unfold put at h ⊢
  split at h
  · cases h
  · rename_i hnew
    obtain rfl := Option.some.inj h
    rw [dif_neg hnew]

/-- The item that a payload is for. -/
def itemOf : Json.Value → Item
  | .str id => ⟨id, .null, []⟩
  | payload => ⟨"", payload, []⟩

/-- Puts up what is posted. -/
def noticeboard : Backend Shelf :=
  { backend with
    update := fun _ payload _ s =>
      (⟨.ok (s.put (itemOf payload)).1, none⟩, (s.put (itemOf payload)).2) }

theorem noticeboard_postedFeed (query : Json.Fields) :
    PostedFeed noticeboard query Subtype.val :=
  { growingFeed query with
    whole := fun _ cursor s items _ h => by
      obtain rfl : itemsAfter s.val cursor = items := by simpa [noticeboard, backend] using h
      rfl
    update := fun _ payload _ s => prefix_put _ s
    posted := fun _ payload _ s item h => by
      have hput : (s.put (itemOf payload)).1 = some item := by simpa [noticeboard] using h
      exact put_eq_some hput ▸ List.prefix_refl _ }

def oneItem : Shelf := ⟨[⟨"a", .null, []⟩], by decide⟩

/-- A cycle accepts what is there; then somebody else's item comes, and an own one behind it; then
another cycle reads on from the own one. -/
def ownPostBehind : Course Shelf :=
  let first := (List.replicate 13 0).foldl (Course.act reader noticeboard)
    ((start reader .acceptAll oneItem).begin reader .cycle)
  let grown : Course Shelf := { first with world := { first.world with backend := twoItems } }
  let posted := (List.replicate 13 1).foldl (Course.act reader noticeboard)
    (grown.begin reader (.command { payload := some (.str "own") }))
  (List.replicate 13 2).foldl (Course.act reader noticeboard) (posted.begin reader .cycle)

theorem ownPostBehind_reached :
    (posting reader noticeboard Subtype.val .shared).Reached .acceptAll oneItem ownPostBehind := by
  have hcycle : Operation.cycle.GoesOnFor reader .shared := ⟨rfl, by simp⟩
  have hupdate : (Operation.command { payload := some (.str "own") }).GoesOnFor reader .shared := by
    refine ⟨rfl, ?_⟩
    rintro c ⟨⟩
    exact ⟨rfl, rfl⟩
  refine ⟨_, rfl, ?_⟩
  refine Rules.Later.turns (Rules.Later.begin (Rules.Later.turns (Rules.Later.begin
    (Relation.ReflTransGen.tail (Rules.Later.turns (Rules.Later.begin .refl ?_) _)
      (.meanwhile (.backend ?_))) ?_) _) ?_) _
  · exact ⟨by decide, hcycle⟩
  · exact ⟨[⟨"b", .null, []⟩], rfl⟩
  · exact ⟨by decide, hupdate⟩
  · exact ⟨by decide, hcycle⟩

/-- All three reported no failure, and the last cycle read when "b" was there; it was never
accepted. -/
theorem ownPostBehind_loses :
    PostedFeed noticeboard reader.settings.query Subtype.val ∧
      reader.settings.skipDuplicates = true ∧
      (posting reader noticeboard Subtype.val .shared).Reached .acceptAll oneItem ownPostBehind ∧
      (∀ t ∈ ownPostBehind.tasks, ∃ outcome, t.plan = .done outcome ∧ outcome.IsOk) ∧
      ∃ w path cursor params items,
        (⟨2, .cycle, w, .read path cursor params, .ok items⟩ : Entry Shelf) ∈ ownPostBehind.log ∧
        ∃ x ∈ w.backend.val, x.id = "b" ∧ x ∉ ownPostBehind.world.handed := by
  refine ⟨noticeboard_postedFeed _, rfl, ownPostBehind_reached, ?_, ?_⟩
  · refine List.forall_mem_cons.mpr ⟨⟨_, rfl, ?_⟩, List.forall_mem_cons.mpr ⟨⟨_, rfl, ?_⟩,
      List.forall_mem_cons.mpr ⟨⟨_, rfl, ?_⟩, ?_⟩⟩⟩
    · exact ⟨_, rfl⟩
    · exact ⟨_, rfl⟩
    · exact ⟨_, rfl⟩
    · rintro t ⟨⟩
  · refine ⟨_, _, _, _, _, List.get_mem ownPostBehind.log ⟨3, by decide⟩, ?_⟩
    refine ⟨⟨"b", .null, []⟩, ?_, rfl, ?_⟩
    · exact List.mem_cons_of_mem _ (List.mem_cons_self ..)
    · intro hmem
      have hid : "b" ∈ ids ownPostBehind.world.handed := List.mem_map_of_mem hmem
      revert hid
      decide

theorem ownPostBehind_delivered_or_passed_over :
    (posting reader noticeboard Subtype.val .shared).Reached .acceptAll oneItem ownPostBehind ∧
      ∃ w path cursor params items,
        (⟨2, .cycle, w, .read path cursor params, .ok items⟩ : Entry Shelf) ∈ ownPostBehind.log ∧
        ids w.backend.val = ["a", "b", "own"] ∧
        ∀ x ∈ w.backend.val, x ∈ ownPostBehind.world.handed ∨
          PassedOver Subtype.val ownPostBehind.toChronicle x := by
  obtain ⟨outcome, htasks, hok⟩ : ∃ outcome : Outcome,
      ownPostBehind.tasks = ownPostBehind.tasks.take 2 ++ [⟨.cycle, .done outcome⟩] ∧
        outcome.IsOk := by
    refine ⟨_, rfl, ?_⟩
    exact ⟨_, rfl⟩
  have hread := List.get_mem ownPostBehind.log ⟨3, by decide⟩
  exact ⟨ownPostBehind_reached, _, _, _, _, _, hread, rfl,
    delivered_or_passed_over (noticeboard_postedFeed _) rfl ownPostBehind_reached htasks hok hread⟩

end Shelf

end FeedPoller
