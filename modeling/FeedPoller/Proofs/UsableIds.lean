import FeedPoller.Proofs.Isolation
import FeedPoller.Proofs.Redelivery
import FeedPoller.Proofs.StatusLists

/-! Where the ids come from that a poller remembers, and what they are like. Whatever it remembers was
given by its backend before (`remembered_given`). Main statement: of statuses the ids are such as can be
asked after, but of search results they are whatever texts stand there, and a poller remembers nothing
worse than those (`usable_ids`). -/

namespace FeedPoller

variable {σ : Type} {p : Poller} {b : Backend σ}

/-! ## What is remembered was given -/

/-- The items that came of a read or an update. -/
def Entry.given (e : Entry σ) : List Item :=
  match e with
  | ⟨_, _, _, .read .., .ok items⟩ => items
  | ⟨_, _, _, .update .., .ok (some item)⟩ => [item]
  | _ => []

/-- An item with such an id was given. -/
def GivenIn (past : List (Entry σ)) (id : String) : Prop := ∃ e ∈ past, ∃ item ∈ e.given, item.id = id

/-- Nothing is recorded but what was given before. -/
def RecordsGiven (_ : Operation) (past : List (Entry σ)) (e : Entry σ) : Prop :=
  ∀ who id, e.action = .record who id → GivenIn past id

theorem GivenIn.mono {past past' : List (Entry σ)} {id : String} (h : GivenIn past id)
    (hsub : past ⊆ past') : GivenIn past' id := by
  obtain ⟨e, he, hgiven⟩ := h
  exact ⟨e, hsub he, hgiven⟩

section Plans

open Terms

variable {i : Nat} {op : Operation}

/-- What was given stays so, whatever is done next. -/
abbrev GivenAll (i : Nat) (items : List Item) : Assertion σ :=
  Did i fun past => ∀ item ∈ items, GivenIn past item.id

theorem givenAll_nil (c : Chronicle σ) : GivenAll i [] c := fun _ hx => nomatch hx

theorem one_given {items : List Item} {action : Action} (h : ∀ who id, action ≠ .record who id) :
    (onOwnPast p b RecordsGiven i op).Ensures (GivenAll i items) (Plan.one action)
      fun _ => GivenAll i items := by
  refine Did.one ?_
  intro past w reply hpast
  refine ⟨fun who id hrecord => absurd hrecord (h who id), ?_⟩
  exact fun item hitem => (hpast item hitem).mono (List.subset_cons_self ..)

theorem calm_given {items : List Item} :
    (onOwnPast p b RecordsGiven i op).Calm (GivenAll i items) where
  lasts := Did.lasts
  aside c _ ha hc := one_given ha.ne_record c hc c rfl

theorem deliver_given {who : Identity} {creds : CredentialSet} {item : Item} {rest : List Item} :
    (onOwnPast p b RecordsGiven i op).Ensures (GivenAll i (item :: rest))
      (Poller.deliver who creds item) fun _ => GivenAll i rest := by
  have hless : ∀ c : Chronicle σ, GivenAll i (item :: rest) c → GivenAll i rest c :=
    fun c hc x hx => hc x (List.mem_cons_of_mem _ hx)
  refine Poller.deliver_ensures (D := GivenAll i (item :: rest))
    ((one_given (by simp)).mono (fun _ h => h) ?_) (Did.one ?_)
  · intro r c hc
    cases r with
    | error _ => exact hless c hc
    | ok _ => exact hc
  · intro past w _ hpast
    refine ⟨?_, fun x hx => (hpast x (List.mem_cons_of_mem _ hx)).mono (List.subset_cons_self ..)⟩
    rintro _ _ ⟨⟩
    exact hpast item List.mem_cons_self

theorem isRepeated_given {who : Identity} {id : String} {items : List Item} :
    (onOwnPast p b RecordsGiven i op).Ensures (GivenAll i items) (p.isRepeated who id)
      fun _ => GivenAll i items := by
  unfold Poller.isRepeated
  split
  · exact one_given (by simp)
  · exact .pure fun _ hc => hc

/-- A poll offers what its read gave. -/
theorem poll_given {path : PathId} {who : Identity} {cursor : Option String} {params : Json.Fields}
    {creds : CredentialSet} :
    (onOwnPast p b RecordsGiven i op).Ensures (GivenAll i []) (p.poll path who cursor params creds)
      fun _ => GivenAll i [] := by
  refine Poller.poll_ensures (S := GivenAll i []) (R := GivenAll i) calm_given
    (fun _ => calm_given) ?_ (fun _ _ hc => hc) ?_
  · refine (Did.one (Q := fun (r : Except ReadFailure (List Item)) past =>
      ∀ items, r = .ok items → ∀ item ∈ items, GivenIn past item.id) ?_).mono (fun _ h => h) ?_
    · intro past w r _
      refine ⟨by rintro _ _ ⟨⟩, ?_⟩
      rintro items rfl item hitem
      exact ⟨_, List.mem_cons_self, item, hitem, rfl⟩
    · intro r c hc
      rcases r with (_ | _) | items
      · exact givenAll_nil c
      · exact givenAll_nil c
      · exact hc items rfl
  · intro items
    refine Poller.offer_ensures (R := fun items _ => GivenAll i items)
      (O := fun item rest _ => GivenAll i (item :: rest)) (fun _ c _ => givenAll_nil c) ?_ ?_ items {}
    · intro item rest _
      refine isRepeated_given.mono (fun _ h => h) ?_
      intro repeated c hc
      cases repeated with
      | true => exact fun x hx => hc x (List.mem_cons_of_mem _ hx)
      | false => exact hc
    · intro item rest _
      refine deliver_given.mono (fun _ h => h) ?_
      intro r c hc
      cases r with
      | error _ => exact givenAll_nil c
      | ok _ => exact hc

theorem submit_given {path : PathId} {who : Identity} {payload : Option Json.Value}
    {headers : Json.Fields} {creds : CredentialSet} :
    (onOwnPast p b RecordsGiven i op).Ensures (GivenAll i [])
      (Poller.submit path who payload headers creds) fun _ => GivenAll i [] := by
  refine Poller.submit_ensures (U := fun item => GivenAll i [item]) calm_given
    (fun _ => calm_given) (fun _ hc => hc) ?_ fun _ => deliver_given
  intro payload
  refine (Did.one (Q := fun (r : Except FetchFailure (Option Item)) past =>
    ∀ item, r = .ok (some item) → GivenIn past item.id) ?_).mono (fun _ h => h) ?_
  · intro past w r _
    refine ⟨by rintro _ _ ⟨⟩, ?_⟩
    rintro item rfl
    exact ⟨_, List.mem_cons_self, item, List.mem_singleton_self item, rfl⟩
  · intro r c hc
    rcases r with _ | _ | item
    · exact givenAll_nil c
    · exact givenAll_nil c
    · intro x hx
      obtain rfl := List.mem_singleton.mp hx
      exact hc x rfl

theorem plan_given (i : Nat) (op : Operation) :
    (onOwnPast p b RecordsGiven i op).Ensures (Did i (· = [])) (op.plan p)
      fun _ => Did i fun _ => True := by
  refine Ensures.mono (P := GivenAll i []) (Q := fun _ => GivenAll i []) ?_
    (fun c _ => givenAll_nil c) fun _ _ _ => trivial
  refine Poller.parts_ensures calm_given calm_given (fun _ hc => hc) (one_given (by simp)) ?_
    fun _ _ _ => submit_given
  intro path cursor params
  refine poll_given.mono (fun _ h => h) ?_
  intro r c hc
  cases r <;> exact hc

end Plans

/-- The log tells what each action gave back. -/
theorem Rules.Later.replied {R : Rules p b} {w : World σ} {c : Course σ}
    (hl : R.Later { world := w } c) :
    ∀ e ∈ c.log, e.reply = (e.world.perform p b e.action).1.value := by
  induction hl with
  | refl => simp
  | tail _ hs ih =>
    cases hs with
    | begin => exact ih
    | act => exact List.forall_mem_cons.mpr ⟨rfl, ih⟩
    | meanwhile => exact ih

/-- What a poller remembers now and did not at the start, its backend has given it in between. -/
theorem remembered_given {R : Rules p b} {rule : Sink.Rule} {s : σ} {c : Course σ}
    (hc : R.Reached rule s c) {who : Identity} {id : String}
    (hid : id ∈ c.world.history.snapshot who) : GivenIn c.log id := by
  obtain ⟨w, hinit, hl⟩ := hc
  obtain ⟨-, _, rfl⟩ := World.init_eq_ok hinit
  rw [hl.faithful.history, (History.bounded_new ..).snapshot_recordAll, History.snapshot_new,
    List.nil_append] at hid
  obtain ⟨⟨who', id'⟩, hrecord, hmatch⟩ := List.mem_filterMap.mp (List.mem_of_mem_drop hid)
  obtain ⟨e, he, hrecorded⟩ := List.mem_filterMap.mp (List.mem_reverse.mp hrecord)
  obtain ⟨past, hpast, hgiven⟩ := (hl.ownPast plan_given).1.of_mem he
  have hown := hgiven who' id' (Entry.recorded_eq_some.mp hrecorded)
  obtain ⟨-, hid'⟩ := Option.ite_none_right_eq_some.mp hmatch
  obtain rfl := Option.some.inj hid'
  exact hown.mono fun x hx => hpast.subset (List.mem_filter.mp hx).1

/-! ## Ids in the bodies of replies -/

/-- An id that an item can be told by and asked after: it is more than blanks, and has none at its
ends. -/
structure UsableId (id : String) : Prop where
  nonempty : id ≠ ""
  trimmed : Text.Trimmed id

instance (id : String) : Decidable (UsableId id) :=
  decidable_of_iff (id ≠ "" ∧ Text.Trimmed id)
    ⟨fun ⟨hnonempty, htrimmed⟩ => ⟨hnonempty, htrimmed⟩, fun h => ⟨h.nonempty, h.trimmed⟩⟩

namespace Feed

open Json (Value)

theorem usableId_of_statusItem {status : Value} {item : Item} (h : statusItem status = .ok item) :
    UsableId item.id := by
  obtain ⟨t, -, hblank, rfl⟩ := statusItem_eq_ok_iff.mp h
  rw [← Text.isEmpty_trim] at hblank
  refine ⟨?_, Text.trimmed_trim t⟩
  show Text.trim t ≠ ""
  rintro hempty
  rw [hempty] at hblank
  cases hblank

theorem usableId_of_statusOfXml {body : String} {item : Item} (h : statusOfXml body = .ok item) :
    UsableId item.id := by
  obtain ⟨_, -, hitem⟩ := bind_eq_ok_iff.mp h
  exact usableId_of_statusItem hitem

theorem usableId_of_mapM {statuses : List Value} {items : List Item}
    (h : statuses.mapM statusItem = .ok items) : ∀ item ∈ items, UsableId item.id := by
  rw [mapM_eq_ok_iff] at h
  induction h with
  | nil => simp
  | cons hstatus _ ih => exact List.forall_mem_cons.mpr ⟨usableId_of_statusItem hstatus, ih⟩

theorem usableId_of_statusesOfXml {body : String} {items : List Item}
    (h : statusesOfXml body = .ok items) : ∀ item ∈ items, UsableId item.id := by
  unfold statusesOfXml at h
  split at h
  · cases h
    simp
  obtain ⟨_, -, hitems⟩ := bind_eq_ok_iff.mp h
  split at hitems
  · cases hitems
    simp
  · exact usableId_of_mapM hitems
  · obtain ⟨_, hitem, hdone⟩ := bind_eq_ok_iff.mp hitems
    cases hdone
    simpa using usableId_of_statusItem hitem

/-- The texts under `id_str` in the results of a search, one for each. -/
def ResultIds (body : String) (ids : List String) : Prop :=
  ∃ v results, Json.parse body = .ok v ∧ (v.get? "results").bind Value.list? = some results ∧
    List.Forall₂ (fun result id => (result.get? "id_str").bind Value.str? = some id) results ids

theorem resultItem_eq_ok_iff {result : Value} {item : Item} :
    resultItem result = .ok item ↔ (result.get? "id_str").bind Value.str? = some item.id ∧
      item = { id := item.id, payload := result } := by
  unfold resultItem
  cases (result.get? "id_str").bind Value.str? with
  | none => simp
  | some id =>
    rw [Except.ok.injEq, Option.some.injEq]
    constructor
    · rintro rfl
      exact ⟨rfl, rfl⟩
    · rintro ⟨rfl, hitem⟩
      exact hitem.symm

theorem resultsOfJson_eq_ok_iff {body : String} {items : List Item} :
    resultsOfJson body = .ok items ↔ ∃ v results, Json.parse body = .ok v ∧
      (v.get? "results").bind Value.list? = some results ∧ results.mapM resultItem = .ok items := by
  unfold resultsOfJson
  cases hparse : Json.parse body with
  | error _ => simp
  | ok v =>
    cases hresults : (v.get? "results").bind Value.list? with
    | none => simp [hresults]
    | some results => simp [hresults]

/-- A search gives an item for each of its results, whatever their ids are. -/
theorem resultIds_iff {body : String} {ids : List String} :
    ResultIds body ids ↔ ∃ items, resultsOfJson body = .ok items ∧ items.map Item.id = ids := by
  simp only [resultsOfJson_eq_ok_iff, mapM_eq_ok_iff, resultItem_eq_ok_iff]
  constructor
  · rintro ⟨v, results, hparse, hresults, hids⟩
    have hitems : ∃ items : List Item, List.Forall₂ (fun result (item : Item) =>
        (result.get? "id_str").bind Value.str? = some item.id ∧
          item = { id := item.id, payload := result }) results items ∧ items.map Item.id = ids := by
      clear hresults
      induction hids with
      | nil => exact ⟨[], .nil, rfl⟩
      | @cons result id _ _ hid _ ih =>
        obtain ⟨items, hitems, rfl⟩ := ih
        exact ⟨{ id, payload := result } :: items, .cons ⟨hid, rfl⟩ hitems, rfl⟩
    obtain ⟨items, hitems, hids⟩ := hitems
    exact ⟨items, ⟨v, results, hparse, hresults, hitems⟩, hids⟩
  · rintro ⟨items, ⟨v, results, hparse, hresults, hitems⟩, rfl⟩
    refine ⟨v, results, hparse, hresults, List.forall₂_map_right_iff.mpr ?_⟩
    exact hitems.imp fun _ _ h => h.1

end Feed

/-! ## What a status feed gives -/

namespace StatusFeed

open Feed

/-- A read of search results. -/
def Searched (e : Entry StatusFeed) : Prop :=
  ∃ path cursor params, e.action = .read path cursor params ∧
    (e.world.backend.path path).source.kind = .search

theorem usableId_of_read {q : Feed.Path} {now : Moment} {cursor : Option String}
    {params : Json.Fields} {t : Transport} {items : List Item} (hkind : q.source.kind ≠ .search)
    (h : (q.read now cursor params t).1 = .ok items) : ∀ item ∈ items, UsableId item.id := by
  unfold Path.read at h
  dsimp only at h
  split at h
  · cases h
    simp
  split at h
  · cases h
  unfold Path.readReply at h
  split at h
  · have hxml : ∀ body, (q.afterRead now).source.items body = statusesOfXml body :=
      fun body => if_neg hkind
    rw [hxml] at h
    split at h
    · rename_i hitems
      cases h
      exact usableId_of_statusesOfXml hitems
    · cases h
  · split at h <;> cases h

theorem usableId_of_update {q : Feed.Path} {payload : Json.Value} {headers : Json.Fields}
    {t : Transport} {item : Item} (h : (q.update payload headers t).1 = .ok (some item)) :
    UsableId item.id := by
  unfold Path.update at h
  dsimp only at h
  split at h
  · cases h
  split at h
  · cases h
  rename_i reply _
  change Path.updateReply reply = _ at h
  unfold Path.updateReply at h
  split at h
  · cases hstatus : statusOfXml reply.body with
    | error e => simp [hstatus, Functor.map, Except.map] at h
    | ok status =>
      simp only [hstatus, Functor.map, Except.map, Except.ok.injEq, Option.some.injEq] at h
      subst h
      exact usableId_of_statusOfXml hstatus
  · cases h

/-- Only a search gives ids that are not usable. -/
theorem usableId_of_given {e : Entry StatusFeed}
    (hreply : e.reply = (e.world.perform p backend e.action).1.value) (hsearch : ¬ Searched e) :
    ∀ item ∈ e.given, UsableId item.id := by
  obtain ⟨i, op, w, action, reply⟩ := e
  cases action with
  | read path cursor params =>
    cases reply with
    | error e => simp [Entry.given]
    | ok items =>
      have hkind : (w.backend.path path).source.kind ≠ .search :=
        fun hkind => hsearch ⟨path, cursor, params, rfl, hkind⟩
      exact usableId_of_read hkind hreply.symm
  | update path payload headers =>
    rcases reply with _ | _ | item
    · simp [Entry.given]
    · simp [Entry.given]
    · simpa [Entry.given] using usableId_of_update hreply.symm
  | _ => simp [Entry.given]

/-- The ids of statuses are always usable. Those of search results are the texts that stand there, and
all that a poller remembers of a feed, its cursor included, is usable if these are. -/
theorem usable_ids (body : String) :
    (∀ items, statusesOfXml body = .ok items → ∀ item ∈ items, UsableId item.id) ∧
      (∀ item, statusOfXml body = .ok item → UsableId item.id) ∧
      (∀ ids, ResultIds body ids ↔
        ∃ items, resultsOfJson body = .ok items ∧ items.map Item.id = ids) ∧
      ∀ (p : Poller) (R : Rules p backend) (rule : Sink.Rule) (s : StatusFeed)
        (c : Course StatusFeed), R.Reached rule s c →
        (∀ e ∈ c.log, Searched e → ∀ item ∈ e.given, UsableId item.id) →
        ∀ who, (∀ id ∈ c.world.history.snapshot who, UsableId id) ∧
          ∀ id ∈ c.world.history.cursor who, UsableId id := by
  refine ⟨fun _ => usableId_of_statusesOfXml, fun _ => usableId_of_statusOfXml,
    fun _ => resultIds_iff, ?_⟩
  intro p R rule s c hc hsearched who
  have hremembered : ∀ id ∈ c.world.history.snapshot who, UsableId id := by
    intro id hid
    obtain ⟨e, he, item, hitem, rfl⟩ := remembered_given hc hid
    obtain ⟨w, -, hl⟩ := hc
    by_cases hsearch : Searched e
    · exact hsearched e he hsearch item hitem
    · exact usableId_of_given (hl.replied e he) hsearch item hitem
  exact ⟨hremembered, fun id hid => hremembered id (History.mem_snapshot_of_mem_cursor hid)⟩

/-! ## Two searches -/

/-- A search that is answered once. -/
def searchFor (body : String) : StatusFeed where
  source := { kind := .search, baseUrl := "http://feed" }
  transport := .prepared { replies := [{ status := 200, body }] }
  moment := ⟨0⟩

/-- Its results are taken in by one cycle. -/
def searched (body : String) : Course StatusFeed :=
  (List.replicate 13 0).foldl (Course.act lastOnly backend)
    (({ world := {
      backend := (searchFor body).create.2, history := .new 1 true } } : Course StatusFeed).begin
      lastOnly .cycle)

theorem searched_reached (body : String) :
    (inSequence lastOnly backend).Reached .acceptAll (searchFor body) (searched body) := by
  refine ⟨_, rfl, (Rules.Later.begin .refl ?_).turns _⟩
  rintro t ⟨⟩

def twoResults : String := "\x7b\"results\":[\x7b\"id_str\":\"7\"\x7d,\x7b\"id_str\":\"9 b\"\x7d]\x7d"

/-- The second id has a blank in it, but none at its ends. -/
theorem twoResults_usable_ids :
    (inSequence lastOnly backend).Reached .acceptAll (searchFor twoResults) (searched twoResults) ∧
      (∀ e ∈ (searched twoResults).log, Searched e → ∀ item ∈ e.given, UsableId item.id) ∧
      (searched twoResults).Idle ∧
      (searched twoResults).world.history.cursor .shared = some "9 b" ∧ UsableId "9 b" := by
  have hgiven : ∀ e ∈ (searched twoResults).log, ∀ item ∈ e.given, UsableId item.id := by
    decide +kernel
  have hcursor : (searched twoResults).world.history.cursor .shared = some "9 b" := by
    decide +kernel
  refine ⟨searched_reached _, fun e he _ => hgiven e he, by decide +kernel, hcursor, ?_⟩
  obtain ⟨-, -, -, hremembered⟩ := usable_ids twoResults
  have hshared := hremembered _ _ _ _ _ (searched_reached twoResults) (fun e he _ => hgiven e he) .shared
  exact hshared.2 _ (Option.mem_def.mpr hcursor)

def emptyId : String := "\x7b\"results\":[\x7b\"id_str\":\"\"\x7d]\x7d"

/-- An empty id is as good as any other to a search: it is remembered, and what comes after it is
asked for. -/
theorem emptyId_remembered :
    (∃ items, resultsOfJson emptyId = .ok items ∧ items.map Item.id = [""]) ∧ ¬ UsableId "" ∧
      (inSequence lastOnly backend).Reached .acceptAll (searchFor emptyId) (searched emptyId) ∧
      (searched emptyId).world.history.snapshot .shared = [""] ∧
      (searched emptyId).world.history.cursor .shared = some "" := by
  refine ⟨?_, by decide, searched_reached _, by decide +kernel, by decide +kernel⟩
  have hids : (resultsOfJson emptyId).toOption.map (List.map Item.id) = some [""] := by
    decide +kernel
  cases hitems : resultsOfJson emptyId with
  | error _ => simp [hitems, Except.toOption] at hids
  | ok items => exact ⟨items, rfl, by simpa [hitems, Except.toOption] using hids⟩

end StatusFeed
end FeedPoller
