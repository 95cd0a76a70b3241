import FeedPoller.Proofs.GrowingFeed
import FeedPoller.Proofs.Operations
import Mathlib.Data.List.DropRight

/-! The history as the end of what was accepted. In any course it holds the last of what was recorded
for each identity. When operations take turns, what is recorded is what was accepted, once each and in
the same order, between any two of them; and each records under its own identity alone. -/

namespace FeedPoller

variable {σ : Type} {p : Poller} {b : Backend σ}

/-- Identity and id of all that was accepted downstream, the first one first. -/
def World.acceptances (w : World σ) : List (Identity × String) :=
  w.sink.accepted.reverse.map fun d => (d.identity, d.item.id)

theorem World.acceptances_of_same {w w' : World σ} (h : w'.sink.accepted = w.sink.accepted) :
    w'.acceptances = w.acceptances := by
  rw [acceptances, h]
  rfl

theorem World.acceptances_keep (w : World σ) (item : Item) (creds : CredentialSet) :
    World.acceptances { w with sink := w.sink.keep (.of item creds) } =
      w.acceptances ++ [(creds.identity, item.id)] := by
  simp only [acceptances, Sink.keep, List.reverse_cons, List.map_append]
  rfl

/-- The ids that go with an identity. -/
def idsUnder (who : Identity) (entries : List (Identity × String)) : List String :=
  entries.filterMap fun e => if e.1 = who then some e.2 else none

theorem idsUnder_append (who : Identity) (entries entries' : List (Identity × String)) :
    idsUnder who (entries ++ entries') = idsUnder who entries ++ idsUnder who entries' :=
  List.filterMap_append

theorem idsUnder_eq_nil {who : Identity} {entries : List (Identity × String)}
    (h : ∀ e ∈ entries, e.1 ≠ who) : idsUnder who entries = [] := by
  rw [idsUnder, List.filterMap_eq_nil_iff]
  intro e he
  rw [if_neg (h e he)]

/-! ## In any course -/

/-- A window on the end of a list moves on by one. -/
theorem rtake_concat {n : Nat} (hn : 1 ≤ n) (ids : List String) (id : String) :
    (ids ++ [id]).rtake n =
      (if n ≤ (ids.rtake n).length then (ids.rtake n).tail else ids.rtake n) ++ [id] := by
  obtain ⟨n, rfl⟩ : ∃ m, n = m + 1 := ⟨n - 1, by omega⟩
  rw [List.rtake_concat_succ, List.append_cancel_right_eq]
  simp only [List.rtake, List.length_drop]
  split
  · rw [List.tail_drop]
    congr 1
    omega
  · have hall : ids.length - (n + 1) = 0 ∧ ids.length - n = 0 := by omega
    rw [hall.1, hall.2]

/-- The history holds the last of what was recorded. -/
structure Ledger (p : Poller) (c : Chronicle σ) : Prop where
  capacity : c.world.history.capacity = p.settings.maxHistory
  tracking : c.world.history.tracking = p.settings.skipDuplicates
  tail : ∀ who, c.world.history.snapshot who =
    (idsUnder who c.records).rtake p.settings.maxHistory

theorem Ledger.of_same {c c' : Chronicle σ} (h : Ledger p c) (hh : c'.world.history = c.world.history)
    (hr : c'.records = c.records) : Ledger p c' := by
  refine ⟨?_, ?_, fun who => ?_⟩
  · rw [hh, h.capacity]
  · rw [hh, h.tracking]
  · rw [hh, hr, h.tail]

theorem Ledger.perform {c : Chronicle σ} (h : Ledger p c) (hpos : 1 ≤ p.settings.maxHistory)
    (i : Nat) (op : Operation) (action : Action) : Ledger p (c.perform p b i op action).2 := by
  by_cases hrec : ∃ who id, action = .record who id
  · obtain ⟨who, id, rfl⟩ := hrec
    have hrecords : (c.perform p b i op (.record who id)).2.records = c.records ++ [(who, id)] :=
      Chronicle.records_cons ..
    refine ⟨h.capacity, h.tracking, fun other => ?_⟩
    change (c.world.history.record who id).snapshot other = _
    rw [hrecords, idsUnder_append, History.snapshot_record, h.capacity]
    by_cases ho : other = who
    · subst ho
      have hid : idsUnder other [(other, id)] = [id] := by simp [idsUnder]
      rw [if_pos rfl, hid, rtake_concat hpos, h.tail]
    · have hnone : idsUnder other [(who, id)] = [] := by
        refine idsUnder_eq_nil fun e he => ?_
        rw [List.mem_singleton.mp he]
        exact Ne.symm ho
      rw [if_neg ho, hnone, List.append_nil, h.tail]
  · have hne : ∀ who id, action ≠ .record who id := fun who id he => hrec ⟨who, id, he⟩
    refine h.of_same (World.history_perform c.world hne) ?_
    rw [Chronicle.perform, Chronicle.records_cons, Entry.recorded_of_ne hne]
    exact List.append_nil _

theorem ledger_of_reached {R : Rules p b} {rule : Sink.Rule} {s : σ} {c : Course σ}
    (h : R.Reached rule s c) : Ledger p c.toChronicle := by
  obtain ⟨w, hw, hl⟩ := h
  obtain ⟨hvalid, backend, rfl⟩ := World.init_eq_ok hw
  obtain ⟨hpos, hmax⟩ := Settings.maxHistory_of_validate hvalid
  induction hl with
  | refl =>
    refine ⟨?_, rfl, fun who => (List.rtake_nil _).symm⟩
    change max 1 (min p.settings.maxHistory maxCapacity) = _
    omega
  | tail _ hs ih =>
    cases hs with
    | begin => exact ih.of_same rfl rfl
    | act => exact ih.perform hpos ..
    | meanwhile hw => exact ih.of_same hw.apart.1 rfl

/-! ## In turn -/

/-- With what is due, all that was accepted is recorded. -/
def Owing (due : List (Identity × String)) (c : Chronicle σ) : Prop :=
  c.records ++ due = c.world.acceptances

/-- Whatever was recorded was recorded under the identity of the operation that did it. -/
def Attributed (p : Poller) (c : Chronicle σ) : Prop :=
  ∀ e ∈ c.log, ∀ who id, e.action = .record who id → e.op.identity p = who

/-- Operations of any kind, each of which begins when those before it are done; the backend may do
anything at any time. -/
def inSequence (p : Poller) (b : Backend σ) : Rules p b where
  moves _ _ := True
  begins c _ := c.Idle

/-- The terms of the operation that has the turn. -/
abbrev booking (p : Poller) (b : Backend σ) (i : Nat) (op : Operation) : Terms p b :=
  (inSequence p b).turn (fun _ _ c c' => Attributed p c → Attributed p c') i op

open Terms

variable {i : Nat} {op : Operation} {who : Identity} {due : List (Identity × String)}

theorem Owing.of_same {c c' : Chronicle σ} (h : Owing due c) (hr : c'.records = c.records)
    (ha : c'.world.sink.accepted = c.world.sink.accepted) : Owing due c' := by
  rw [Owing, hr, World.acceptances_of_same ha]
  exact h

/-- A delivery that is refused owes nothing. -/
theorem Owing.refused {c : Chronicle σ} (h : Owing due c) (T : Terms p b) (d : Delivery)
    (reason : String) :
    Owing due (T.after c (.dispatch d) (.error reason) { c.world with sink := c.world.sink.noted }) := by
  refine h.of_same ?_ rfl
  exact (Chronicle.records_cons ..).trans (List.append_nil _)

/-- One that is accepted is due to be recorded. -/
theorem Owing.accepted {c : Chronicle σ} (h : Owing [] c) (T : Terms p b) (item : Item)
    (creds : CredentialSet) :
    Owing [(creds.identity, item.id)] (T.after c (.dispatch (.of item creds)) (.ok ())
      { c.world with sink := c.world.sink.keep (.of item creds) }) := by
  have hkeep := c.world.acceptances_keep item creds
  rw [Owing, List.append_nil] at h
  rw [← h] at hkeep
  rw [Owing, after, Chronicle.records_cons]
  exact (List.append_nil c.records).symm ▸ hkeep.symm

/-- Once it is recorded, nothing is due. -/
theorem Owing.recorded {c : Chronicle σ} {id : String} (h : Owing [(who, id)] c) (T : Terms p b) :
    Owing [] (T.after c (.record who id) ()
      { c.world with history := c.world.history.record who id }) := by
  rw [Owing, after, Chronicle.records_cons, List.append_nil]
  exact h

theorem Owing.meanwhile {c : Chronicle σ} {w : World σ} (h : Owing due c)
    (hw : Meanwhile (inSequence p b).moves c.world w) : Owing due { c with world := w } :=
  h.of_same rfl (congrArg Sink.accepted hw.apart.2.1)

theorem Owing.lasts : (booking p b i op).Lasts (Owing due) :=
  Rules.lasts_turn fun _ _ h hw => h.meanwhile hw

theorem Attributed.after {c : Chronicle σ} (h : Attributed p c) {action : Action}
    (hrec : ∀ who id, action = .record who id → op.identity p = who) (reply : action.Reply)
    (w : World σ) : Attributed p ((booking p b i op).after c action reply w) := by
  intro e he who id hact
  obtain rfl | he := List.mem_cons.mp he
  · exact hrec who id hact
  · exact h e he who id hact

/-- Actions other than records and deliveries leave the books alone. -/
theorem one_books (action : Action) (hr : ∀ who id, action ≠ .record who id)
    (hd : ∀ d, action ≠ .dispatch d) :
    (booking p b i op).Ensures (Owing due) (Plan.one action) fun _ => Owing due := by
  refine .one Owing.lasts fun c h => ⟨fun ha => ?_, ?_⟩
  · exact ha.after (fun who id he => absurd he (hr who id)) _ _
  · refine h.of_same ?_ (congrArg Sink.accepted (World.sink_perform c.world hd))
    rw [Terms.perform, Chronicle.perform, Chronicle.records_cons, Entry.recorded_of_ne hr]
    exact List.append_nil _

theorem calm_books : (booking p b i op).Calm (Owing due) where
  lasts := Owing.lasts
  aside c action ha h := one_books action ha.ne_record ha.ne_dispatch c h c .refl

/-- What is accepted is due at once, and then recorded. -/
theorem deliver_books {creds : CredentialSet} (hcreds : creds.identity = who)
    (hop : op.identity p = who) (item : Item) :
    (booking p b i op).Ensures (Owing []) (Poller.deliver who creds item) fun _ => Owing [] := by
  subst hcreds
  refine Poller.deliver_ensures (D := Owing [(creds.identity, item.id)])
    (.dispatch Owing.lasts (fun c reason h => ?_) fun c h => ?_) (.record Owing.lasts fun c h => ?_)
  · exact ⟨fun ha => ha.after (by simp) _ _, h.refused _ _ reason⟩
  · exact ⟨fun ha => ha.after (by simp) _ _, h.accepted _ item creds⟩
  · refine ⟨fun ha => ha.after (fun _ _ he => ?_) _ _, h.recorded _⟩
    cases he
    exact hop

theorem poll_books {creds : CredentialSet} (hcreds : creds.identity = who)
    (hop : op.identity p = who) (path : PathId) (cursor : Option String) (params : Json.Fields) :
    (booking p b i op).Ensures (Owing []) (p.poll path who cursor params creds)
      fun _ => Owing [] := by
  refine Poller.poll_ensures (S := Owing []) (R := fun _ => Owing []) calm_books
    (fun _ => calm_books) ?_ (fun _ _ h => h) fun items => ?_
  · refine (one_books (.read path cursor params) (by simp) (by simp)).mono (fun _ h => h)
      fun r _ h => ?_
    match r with
    | .error (.rateLimited _) => exact h
    | .error (.fetch _) => exact h
    | .ok _ => exact h
  · refine Poller.offer_ensures (R := fun _ _ => Owing []) (O := fun _ _ _ => Owing [])
      (fun _ _ h => h) (fun item _ _ => ?_) (fun item _ _ => ?_) items {}
    · unfold Poller.isRepeated
      split
      · refine (one_books (.seen who item.id) (by simp) (by simp)).mono (fun _ h => h)
          fun repeated _ h => ?_
        split <;> exact h
      · exact .pure fun _ h => h
    · refine (deliver_books hcreds hop item).mono (fun _ h => h) fun r _ h => ?_
      match r with
      | .error _ => exact h
      | .ok () => exact h

theorem submit_books {creds : CredentialSet} (hcreds : creds.identity = who)
    (hop : op.identity p = who) (path : PathId) (payload : Option Json.Value)
    (headers : Json.Fields) :
    (booking p b i op).Ensures (Owing []) (Poller.submit path who payload headers creds)
      fun _ => Owing [] := by
  refine Poller.submit_ensures (U := fun _ => Owing []) calm_books (fun _ => calm_books)
    (fun _ h => h) (fun payload => ?_) fun item => deliver_books hcreds hop item
  refine (one_books (.update path payload headers) (by simp) (by simp)).mono (fun _ h => h)
    fun r _ h => ?_
  match r with
  | .error _ => exact h
  | .ok none => exact h
  | .ok (some _) => exact h

theorem plan_books : (booking p b i op).Ensures (Owing []) (op.plan p) fun _ => Owing [] := by
  refine Poller.parts_ensures calm_books calm_books (fun _ h => h)
    (one_books (.cursor _) (by simp) (by simp)) ?_ ?_
  · intro path cursor params
    refine (poll_books rfl rfl path cursor params).mono (fun _ h => h) ?_
    intro r c h
    cases r <;> exact h
  · intro path payload headers
    exact submit_books rfl rfl path payload headers

theorem inTurn_inSequence :
    InTurn (inSequence p b) (fun _ _ c c' => Attributed p c → Attributed p c')
      (fun _ _ _ => Owing []) (Owing []) (Attributed p) where
  turns _ _ h := h
  worldJ _ _ h hw := h.meanwhile hw
  worldK _ _ h _ := h
  worldPost _ _ _ _ _ h hw := h.meanwhile hw
  kept _ _ _ _ h := h
  begin c _ _ _ h := plan_books c.toChronicle h
  done _ _ _ _ h := h

theorem good_of_reached {rule : Sink.Rule} {s : σ} {c : Course σ}
    (h : (inSequence p b).Reached rule s c) :
    InTurn.Good (inSequence p b) (fun _ _ c c' => Attributed p c → Attributed p c')
      (fun _ _ _ => Owing []) (Owing []) (Attributed p) c := by
  obtain ⟨w, hw, hl⟩ := h
  obtain ⟨-, backend, rfl⟩ := World.init_eq_ok hw
  exact inTurn_inSequence.holds hl rfl (by simp [Attributed])

/-- The log only gets longer. -/
theorem Rules.Later.log {R : Rules p b} {c c' : Course σ} (h : R.Later c c') :
    c.log <:+ c'.log := by
  induction h with
  | refl => exact List.suffix_refl _
  | tail _ hs ih =>
    cases hs with
    | begin => exact ih
    | act => exact ih.trans (List.suffix_cons ..)
    | meanwhile => exact ih

/-- Between operations the books are straight, and operations leave the history and the cursor of every
identity but their own alone. -/
theorem history_is_tail {rule : Sink.Rule} {s : σ} {c : Course σ}
    (h : (inSequence p b).Reached rule s c) :
    (c.Idle → c.records = c.world.acceptances ∧ ∀ who, c.world.history.snapshot who =
      (idsUnder who c.world.acceptances).rtake p.settings.maxHistory) ∧
    ∀ c', (inSequence p b).Later c c' → ∃ new, c'.log = new ++ c.log ∧
      ∀ who, (∀ e ∈ new, e.op.identity p ≠ who) →
        c'.world.history.snapshot who = c.world.history.snapshot who ∧
        c'.world.history.cursor who = c.world.history.cursor who := by
  have hledger := ledger_of_reached h
  refine ⟨fun hidle => ?_, fun c' hl => ?_⟩
  · have hbooks : c.records = c.world.acceptances := by
      have howing : Owing [] c.toChronicle :=
        InTurn.Good.idle inTurn_inSequence (good_of_reached h) hidle
      rwa [Owing, List.append_nil] at howing
    refine ⟨hbooks, fun who => ?_⟩
    rw [hledger.tail, hbooks]
  · -- the history is told by the records, and none of the new ones is under `who`
    obtain ⟨w, hw, hl₀⟩ := h
    have h' : (inSequence p b).Reached rule s c' := ⟨w, hw, hl₀.trans hl⟩
    have hledger' := ledger_of_reached h'
    obtain ⟨new, hnew⟩ := hl.log
    refine ⟨new, hnew.symm, fun who hother => ?_⟩
    have hrecords : c'.records = c.records ++ (new.filterMap Entry.recorded).reverse := by
      rw [Chronicle.records, ← hnew, List.filterMap_append, List.reverse_append]
      rfl
    have hnone : idsUnder who (new.filterMap Entry.recorded).reverse = [] := by
      refine idsUnder_eq_nil fun r hr => ?_
      obtain ⟨e, he, hrec⟩ := List.mem_filterMap.mp (List.mem_reverse.mp hr)
      have hlog : e ∈ c'.log := hnew ▸ List.mem_append_left _ he
      rw [← (good_of_reached h').always e hlog r.1 r.2 (Entry.recorded_eq_some.mp hrec)]
      exact hother e he
    have hsnapshot : c'.world.history.snapshot who = c.world.history.snapshot who := by
      rw [hledger'.tail, hledger.tail, hrecords, idsUnder_append, hnone, List.append_nil]
    refine ⟨hsnapshot, ?_⟩
    rw [History.cursor_eq, History.cursor_eq, hledger'.tracking, hledger.tracking, hsnapshot]

/-- Remembers one item. -/
def Shelf.forgetful : Poller := { settings := { maxHistory := 1 }, background := {} }

/-- A cycle reads two items, and then a command reads them for a user. -/
def sharedThenUser : Course Shelf :=
  let first := (List.replicate 12 0).foldl (Course.act Shelf.forgetful Shelf.backend)
    ((Shelf.start Shelf.forgetful .acceptAll .twoItems).begin Shelf.forgetful .cycle)
  (List.replicate 12 1).foldl (Course.act Shelf.forgetful Shelf.backend)
    (first.begin Shelf.forgetful (.command
      { poll := some true, consumer := some ⟨"app", "s"⟩, user := some ⟨"ann", "t"⟩ }))

theorem sharedThenUser_history_is_tail :
    (inSequence Shelf.forgetful Shelf.backend).Reached .acceptAll .twoItems sharedThenUser ∧
      sharedThenUser.Idle ∧
      sharedThenUser.records =
        [(.shared, "a"), (.shared, "b"), (.user "ann", "a"), (.user "ann", "b")] ∧
      sharedThenUser.world.history.snapshot (.user "ann") =
        (idsUnder (.user "ann") sharedThenUser.world.acceptances).rtake 1 := by
  have hidle : sharedThenUser.Idle := by decide
  have h : (inSequence Shelf.forgetful Shelf.backend).Reached .acceptAll .twoItems
      sharedThenUser := by
    refine ⟨_, rfl, (Rules.Later.begin (Rules.Later.turns (Rules.Later.begin .refl ?_) _) ?_).turns _⟩
    · show Course.Idle _
      decide
    · show Course.Idle _
      decide
  obtain ⟨-, htail⟩ := (history_is_tail h).1 hidle
  exact ⟨h, hidle, rfl, htail _⟩

end FeedPoller
