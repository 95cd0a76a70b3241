import FeedPoller.Proofs.BoundedQueues
import FeedPoller.Proofs.Conduct
import FeedPoller.Proofs.Failures
import FeedPoller.Proofs.SlidingWindow

/-! What a poll delivers once more. It looks every item up just before it delivers it, among what is
remembered by then, and each delivery pushes out an older one. Main statement: whatever goes on beside
a poll, an id that was remembered when its read came back, or that it delivered itself, is delivered by
it only after as many more have been recorded as it takes to push that one out
(`forgotten_of_delivered`). -/

namespace FeedPoller

variable {σ : Type} {p : Poller} {b : Backend σ}

/-! ## What an operation looks up, delivers and records -/

/-- What was offered downstream, and under which identity, whether or not it was accepted. -/
def Entry.offered (e : Entry σ) : Option (Identity × String) :=
  match e.action with
  | .dispatch d => some (d.identity, d.item.id)
  | _ => none

/-- What was looked up and not found. -/
def Entry.missed (e : Entry σ) : Option (Identity × String) :=
  match e with
  | ⟨_, _, _, .seen who id, false⟩ => some (who, id)
  | _ => none

/-- So far an operation has recorded all that it offered, and asked for no update. -/
structure Balanced (past : List (Entry σ)) : Prop where
  offered : past.filterMap Entry.offered = past.filterMap Entry.recorded
  noUpdate : ∀ e ∈ past, e.action.NoUpdate

/-- The last thing it did was to look something up, which was not found. -/
def Looked (sought : Identity × String) (past : List (Entry σ)) : Prop :=
  ∃ check rest, past = check :: rest ∧ check.missed = some sought ∧ Balanced rest

/-- It has offered something that it is yet to record. -/
structure Due (sought : Identity × String) (past : List (Entry σ)) : Prop where
  offered : past.filterMap Entry.offered = sought :: past.filterMap Entry.recorded
  noUpdate : ∀ e ∈ past, e.action.NoUpdate

/-- What has to hold before an operation reads and before it delivers. What an update gave is not
looked up. -/
def Checked (p : Poller) (op : Operation) (past : List (Entry σ)) (e : Entry σ) : Prop :=
  match e.action with
  | .read .. => Balanced past
  | .dispatch d => d.identity = op.identity p ∧
    ((∃ e' ∈ past, ¬ e'.action.NoUpdate) ∨ Looked (d.identity, d.item.id) past)
  | _ => True

theorem balanced_nil : Balanced ([] : List (Entry σ)) := ⟨rfl, by simp⟩

theorem Balanced.cons {past : List (Entry σ)} (h : Balanced past) {e : Entry σ}
    (hupdate : e.action.NoUpdate) (hoffered : e.offered = none) (hrecorded : e.recorded = none) :
    Balanced (e :: past) where
  offered := by
    rw [List.filterMap_cons_none hoffered, List.filterMap_cons_none hrecorded]
    exact h.offered
  noUpdate := List.forall_mem_cons.mpr ⟨hupdate, h.noUpdate⟩

theorem Entry.eq_of_missed {e : Entry σ} {who : Identity} {id : String}
    (h : e.missed = some (who, id)) : ∃ i op w, e = ⟨i, op, w, .seen who id, false⟩ := by
  unfold missed at h
  split at h
  · obtain ⟨rfl, rfl⟩ := Prod.mk.inj (Option.some.inj h)
    exact ⟨_, _, _, rfl⟩
  · cases h

theorem Entry.action_of_missed {e : Entry σ} {sought : Identity × String}
    (h : e.missed = some sought) : e.action = .seen sought.1 sought.2 := by
  obtain ⟨i, op, w, rfl⟩ := eq_of_missed h
  rfl

theorem Looked.balanced {sought : Identity × String} {past : List (Entry σ)}
    (h : Looked sought past) : Balanced past := by
  obtain ⟨check, rest, rfl, hmissed, hbalanced⟩ := h
  obtain ⟨i, op, w, rfl⟩ := Entry.eq_of_missed hmissed
  exact hbalanced.cons trivial rfl rfl

theorem Balanced.due {past : List (Entry σ)} (h : Balanced past) {e : Entry σ} {d : Delivery}
    (he : e.action = .dispatch d) : Due (d.identity, d.item.id) (e :: past) := by
  have hoffered : e.offered = some (d.identity, d.item.id) := by simp [Entry.offered, he]
  have hrecorded : e.recorded = none := by simp [Entry.recorded, he]
  refine ⟨?_, List.forall_mem_cons.mpr ⟨by rw [he]; trivial, h.noUpdate⟩⟩
  rw [List.filterMap_cons_some hoffered, List.filterMap_cons_none hrecorded, h.offered]

theorem Due.balanced {past : List (Entry σ)} {who : Identity} {id : String} (h : Due (who, id) past)
    {e : Entry σ} (he : e.action = .record who id) : Balanced (e :: past) := by
  have hoffered : e.offered = none := by simp [Entry.offered, he]
  have hrecorded : e.recorded = some (who, id) := by simp [Entry.recorded, he]
  refine ⟨?_, List.forall_mem_cons.mpr ⟨by rw [he]; trivial, h.noUpdate⟩⟩
  rw [List.filterMap_cons_none hoffered, List.filterMap_cons_some hrecorded, h.offered]

open Terms

variable {i : Nat} {op : Operation}

theorem Did.checked_calm {P : List (Entry σ) → Prop}
    (hP : ∀ past (e : Entry σ), e.action.IsAside → P past → P (e :: past)) :
    (onOwnPast p b (Checked p) i op).Calm (Did i P) where
  lasts := Did.lasts
  aside c action ha h := by
    have hone : (onOwnPast p b (Checked p) i op).Ensures (Did i P) (Plan.one action)
        fun _ => Did i P := by
      refine Did.one ?_
      intro past w reply hpast
      refine ⟨?_, hP past _ ha hpast⟩
      cases action with
      | read | dispatch => exact ha.elim
      | _ => trivial
    exact hone c h c rfl

theorem Balanced.aside {past : List (Entry σ)} (h : Balanced past) {e : Entry σ}
    (ha : e.action.IsAside) : Balanced (e :: past) := by
  obtain ⟨j, op', w, action, reply⟩ := e
  cases action with
  | cursor | read | update | seen | dispatch | record => exact ha.elim
  | _ => exact h.cons trivial rfl rfl

theorem Balanced.calm : (onOwnPast p b (Checked p) i op).Calm (Did i Balanced) :=
  Did.checked_calm fun _ _ ha h => h.aside ha

theorem isRepeated_checked (hskip : p.settings.skipDuplicates = true) (id : String) :
    (onOwnPast p b (Checked p) i op).Ensures (Did i Balanced) (p.isRepeated (op.identity p) id)
      fun repeated => if repeated = true then Did i Balanced
        else Did i (Looked (op.identity p, id)) := by
  rw [Poller.isRepeated, if_pos hskip]
  refine (Did.one (Q := fun repeated : Bool => if repeated = true then Balanced
    else Looked (op.identity p, id)) ?_).mono (fun _ h => h) ?_
  · intro past w repeated h
    cases repeated with
    | true => exact ⟨trivial, h.cons trivial rfl rfl⟩
    | false => exact ⟨trivial, _, _, rfl, rfl, h⟩
  · intro repeated c h
    cases repeated <;> exact h

/-- A delivery that was refused is the last; one that was accepted is recorded. -/
theorem deliver_checked (item : Item) :
    (onOwnPast p b (Checked p) i op).Ensures (Did i (Looked (op.identity p, item.id)))
      (Poller.deliver (op.identity p) (op.credentials p) item)
      fun r => Did i fun past => r.isOk = true → Balanced past := by
  refine Poller.deliver_ensures (D := Did i (Due (op.identity p, item.id))) ?_ ?_
  · refine (Did.one (Q := fun (r : Except String Unit) past =>
      r.isOk = true → Due (op.identity p, item.id) past) ?_).mono (fun _ h => h) ?_
    · rintro past w r ⟨check, rest, rfl, hmissed, hbalanced⟩
      refine ⟨⟨rfl, .inr ⟨check, rest, rfl, hmissed, hbalanced⟩⟩, ?_⟩
      intro _
      have hbefore : Balanced (check :: rest) :=
        Looked.balanced ⟨check, rest, rfl, hmissed, hbalanced⟩
      exact hbefore.due (d := .of item (op.credentials p)) rfl
    · intro r c h
      cases r with
      | error _ => exact fun hok => nomatch hok
      | ok _ => exact h rfl
  · refine Did.one ?_
    intro past w _ h
    exact ⟨trivial, fun _ => h.balanced rfl⟩

theorem read_checked {path : PathId} {cursor : Option String} {params : Json.Fields} :
    (onOwnPast p b (Checked p) i op).Ensures (Did i Balanced) (Plan.one (.read path cursor params))
      fun _ => Did i Balanced := by
  refine Did.one ?_
  intro past w _ h
  exact ⟨h, h.cons trivial rfl rfl⟩

theorem cursor_checked {who : Identity} :
    (onOwnPast p b (Checked p) i op).Ensures (Did i Balanced) (Plan.one (.cursor who))
      fun _ => Did i Balanced := by
  refine Did.one ?_
  intro past w _ h
  exact ⟨trivial, h.cons trivial rfl rfl⟩

/-- Of an operation that is over, or asked for an update, nothing more is said. -/
theorem calm_over : (onOwnPast p b (Checked p) i op).Calm (Did i fun _ => True) :=
  Did.checked_calm fun _ _ _ _ => trivial

/-- A poll that ends well has recorded all that it offered. -/
theorem poll_checked (hskip : p.settings.skipDuplicates = true) (path : PathId)
    (cursor : Option String) (params : Json.Fields) :
    (onOwnPast p b (Checked p) i op).Ensures (Did i Balanced)
      (p.poll path (op.identity p) cursor params (op.credentials p))
      fun r => Did i fun past => r.isOk = true → Balanced past := by
  refine Poller.poll_ensures (S := Did i Balanced) (R := fun _ => Did i Balanced) Balanced.calm ?_
    (read_checked.mono (fun _ h => h) ?_) (fun _ _ h _ => h) ?_
  · intro r
    refine Did.checked_calm ?_
    intro past e ha h hok
    exact Balanced.aside (h hok) ha
  · intro r c h
    rcases r with (_ | _) | _
    · exact h
    · exact fun hok => nomatch hok
    · exact h
  · intro items
    refine Poller.offer_ensures (R := fun _ _ => Did i Balanced)
      (O := fun item _ _ => Did i (Looked (op.identity p, item.id))) (fun _ _ h _ => h)
      (fun item _ _ => isRepeated_checked hskip item.id) ?_ items {}
    intro item _ _
    refine (deliver_checked item).mono (fun _ h => h) ?_
    intro r c h
    cases r with
    | error _ => exact fun hok => nomatch hok
    | ok _ => exact h rfl

/-- From the update on nothing more is said. -/
theorem submit_checked (path : PathId) (payload : Option Json.Value) (headers : Json.Fields) :
    (onOwnPast p b (Checked p) i op).Ensures (Did i Balanced)
      (Poller.submit path (op.identity p) payload headers (op.credentials p))
      fun _ => Did i fun _ => True := by
  refine Poller.submit_ensures
    (U := fun _ => Did i fun past => ∃ e ∈ past, ¬ e.action.NoUpdate) Balanced.calm
    (fun _ => calm_over) (fun _ _ => trivial) ?_ ?_
  · intro payload
    refine (Did.one (Q := fun _ past => ∃ e ∈ past, ¬ e.action.NoUpdate) ?_).mono (fun _ h => h) ?_
    · intro past w r _
      exact ⟨trivial, _, List.mem_cons_self .., id⟩
    · intro r c h
      rcases r with _ | _ | _
      · trivial
      · trivial
      · exact h
  · intro item
    refine Poller.deliver_ensures (D := Did i fun _ => True) ?_
      (Did.one fun _ _ _ _ => ⟨trivial, trivial⟩)
    refine (Did.one (Q := fun _ _ => True) ?_).mono (fun _ h => h) ?_
    · intro past w r h
      exact ⟨⟨rfl, .inl h⟩, trivial⟩
    · intro r c _
      cases r <;> trivial

theorem plan_checked (hskip : p.settings.skipDuplicates = true) (i : Nat) (op : Operation) :
    (onOwnPast p b (Checked p) i op).Ensures (Did i (· = [])) (op.plan p)
      fun _ => Did i fun _ => True := by
  have hplan : (onOwnPast p b (Checked p) i op).Ensures (Did i Balanced) (op.plan p)
      fun _ => Did i fun _ => True := by
    refine Poller.parts_ensures Balanced.calm calm_over (fun _ _ => trivial) cursor_checked ?_
      submit_checked
    intro path cursor params
    refine (poll_checked hskip path cursor params).mono (fun _ h => h) ?_
    intro r c h
    cases r with
    | error _ => trivial
    | ok _ => exact h rfl
  refine hplan.mono ?_ fun _ _ h => h
  intro c hc
  have hown : c.own i = [] := hc
  rw [Did, hown]
  exact balanced_nil

/-! ## What the log tells of the history -/

/-- What was recorded, the first one first. -/
def recordsIn (log : List (Entry σ)) : List (Identity × String) :=
  (log.filterMap Entry.recorded).reverse

/-- The ids that were recorded under an identity, the first one first. -/
def recordedUnder (who : Identity) (log : List (Entry σ)) : List String :=
  idsUnder who (recordsIn log)

theorem recordsIn_append (log log' : List (Entry σ)) :
    recordsIn (log ++ log') = recordsIn log' ++ recordsIn log := by
  rw [recordsIn, List.filterMap_append, List.reverse_append]
  rfl

theorem recordsIn_cons_none {e : Entry σ} (he : e.recorded = none) (log : List (Entry σ)) :
    recordsIn (e :: log) = recordsIn log := by
  rw [recordsIn, List.filterMap_cons_none he]
  rfl

theorem recordedUnder_append (who : Identity) (log log' : List (Entry σ)) :
    recordedUnder who (log ++ log') = recordedUnder who log' ++ recordedUnder who log := by
  rw [recordedUnder, recordsIn_append, idsUnder_append]
  rfl

theorem recordedUnder_cons_none {who : Identity} {e : Entry σ} (he : e.recorded = none)
    (log : List (Entry σ)) : recordedUnder who (e :: log) = recordedUnder who log := by
  rw [recordedUnder, recordsIn_cons_none he]
  rfl

/-- An entry was made when the history had recorded what came before it, and what was not found is
not there. -/
structure Told (h : History) (past : List (Entry σ)) (e : Entry σ) : Prop where
  history : e.world.history = h.recordAll (recordsIn past)
  missed : ∀ who id, e.missed = some (who, id) → e.world.history.seen who id = false

/-- The history is what the log tells. -/
structure Chronicle.Faithful (h : History) (c : Chronicle σ) : Prop where
  history : c.world.history = h.recordAll (recordsIn c.log)
  told : EachGiven (Told h) c.log

theorem Chronicle.Faithful.perform {h : History} {c : Chronicle σ} (hc : c.Faithful h) (i : Nat)
    (op : Operation) (action : Action) : (c.perform p b i op action).2.Faithful h := by
  refine ⟨?_, ⟨⟨hc.history, ?_⟩, hc.told⟩⟩
  · by_cases hrecord : ∃ who id, action = .record who id
    · obtain ⟨who, id, rfl⟩ := hrecord
      have hafter := History.recordAll_concat h (recordsIn c.log) who id
      rw [← hc.history] at hafter
      have hlog : recordsIn ((⟨i, op, c.world, .record who id, ()⟩ : Entry σ) :: c.log) =
          recordsIn c.log ++ [(who, id)] := List.reverse_cons
      exact hafter.symm.trans (congrArg h.recordAll hlog.symm)
    · have hne : ∀ who id, action ≠ .record who id := fun who id he => hrecord ⟨who, id, he⟩
      have hlog := recordsIn_cons_none (Entry.recorded_of_ne (e := ⟨i, op, c.world, action,
        (c.world.perform p b action).1.value⟩) hne) c.log
      exact (c.world.history_perform hne).trans (hc.history.trans (congrArg h.recordAll hlog.symm))
  · intro who id hmissed
    obtain ⟨i', op', w, he⟩ := Entry.eq_of_missed hmissed
    cases action with
    | seen who' id' =>
      obtain ⟨rfl, rfl, rfl, hseen⟩ := Entry.mk.inj he
      obtain ⟨rfl, rfl⟩ := Action.seen.inj hseen.1
      exact eq_of_heq hseen.2
    | _ => cases he

theorem Rules.Later.faithful {R : Rules p b} {w : World σ} {c : Course σ}
    (hl : R.Later { world := w } c) : c.Faithful w.history := by
  induction hl with
  | refl => exact ⟨rfl, trivial⟩
  | tail _ hs ih =>
    cases hs with
    | begin => exact ih
    | act => exact ih.perform ..
    | meanwhile hw => exact ⟨hw.apart.1.trans ih.history, ih.told⟩

/-! ## Deliveries of a poll -/

/-- A delivery `e` of a poll and the read `r` from which the poll has its items, with what was done
between the two, by any operation, the newest first. -/
structure OfPoll (r e : Entry σ) (d : Delivery) (between : List (Entry σ)) : Prop where
  delivery : e.action = .dispatch d
  read : ∃ path cursor params, r.action = .read path cursor params
  own : r.task = e.task
  noUpdate : ∀ e' ∈ between, e'.task = e.task → e'.action.NoUpdate

/-- What was forgotten by the time of a delivery, when `n` ids are remembered. -/
structure Forgotten (n : Nat) (r e : Entry σ) (d : Delivery) (between : List (Entry σ)) : Prop where
  /-- The id was looked up after the read and was not among the last that had been remembered. -/
  looked : ∃ newer check older, between = newer ++ check :: older ∧ check.task = e.task ∧
    check.missed = some (d.identity, d.item.id) ∧
    d.item.id ∉ (r.world.history.snapshot d.identity ++ recordedUnder d.identity older).rtake n
  /-- If it was remembered when the read came back, it was pushed out since. -/
  remembered : ∀ place : Nat, (r.world.history.snapshot d.identity)[place]? = some d.item.id →
    place + n <
      (r.world.history.snapshot d.identity).length + (recordedUnder d.identity between).length
  /-- If the poll had delivered it before, it was recorded then, and pushed out since. -/
  delivered : ∀ newer e' older d', between = newer ++ e' :: older → e'.task = e.task →
    e'.action = .dispatch d' → d'.item.id = d.item.id → n < (recordedUnder d.identity newer).length
  /-- What the poll itself recorded since the read is what it delivered. -/
  own : (between.filter (·.task = e.task)).filterMap Entry.recorded =
    (between.filter (·.task = e.task)).filterMap Entry.offered

theorem OfPoll.earlier {newer older : List (Entry σ)} {r e e' : Entry σ} {d d' : Delivery}
    (h : OfPoll r e d (newer ++ e' :: older)) (htask : e'.task = e.task)
    (hdispatch : e'.action = .dispatch d') : OfPoll r e' d' older := by
  refine ⟨hdispatch, h.read, h.own.trans htask.symm, ?_⟩
  intro x hx hxtask
  exact h.noUpdate x (List.mem_append_right _ (List.mem_cons_of_mem _ hx)) (hxtask.trans htask)

/-- A log of operations that look up what they deliver, from a time when the history was this. -/
structure Careful (p : Poller) (h : History) (log : List (Entry σ)) : Prop where
  told : EachGiven (Told h) log
  checked : EachGiven (fun past e => Checked p e.op (past.filter (·.task = e.task)) e) log
  signed : ∀ e ∈ log, ∀ e' ∈ log, e.task = e'.task → e.op = e'.op

theorem split_after {α : Type} {newer older newer' older' : List α} {a a' : α}
    (h : newer ++ a :: older = newer' ++ a' :: older') (hne : a ≠ a') (hnot : a' ∉ newer) :
    ∃ mid, newer' = newer ++ a :: mid ∧ older = mid ++ a' :: older' := by
  rcases List.append_eq_append_iff.mp h with ⟨mid, rfl, hrest⟩ | ⟨mid, rfl, hrest⟩
  · cases mid with
    | nil => exact absurd (List.cons.inj hrest).1 hne
    | cons x mid =>
      obtain ⟨rfl, rfl⟩ := List.cons.inj hrest
      exact ⟨mid, rfl, rfl⟩
  · cases mid with
    | nil => exact absurd (List.cons.inj hrest).1.symm hne
    | cons x mid =>
      obtain ⟨rfl, -⟩ := List.cons.inj hrest
      exact absurd (List.mem_append_right _ (List.mem_cons_self ..)) hnot

/-- Where nothing is due before and after, as much was recorded as was offered. -/
theorem Balanced.recorded {newer older : List (Entry σ)} (h : Balanced (newer ++ older))
    (h' : Balanced older) : newer.filterMap Entry.offered = newer.filterMap Entry.recorded := by
  have hall := h.offered
  rw [List.filterMap_append, List.filterMap_append, h'.offered] at hall
  exact List.append_cancel_right hall

/-- If something was offered in between, it was recorded later. -/
theorem Balanced.mem_recorded {newer older : List (Entry σ)} {e : Entry σ}
    {offer : Identity × String} (h : Balanced (newer ++ e :: older)) (h' : Balanced older)
    (hoffered : e.offered = some offer) (hrecorded : e.recorded = none) :
    offer ∈ newer.filterMap Entry.recorded := by
  have hall := h.offered
  rw [List.filterMap_append, List.filterMap_append, List.filterMap_cons_some hoffered,
    List.filterMap_cons_none hrecorded, h'.offered, ← List.singleton_append, ← List.append_assoc]
    at hall
  rw [← List.append_cancel_right hall]
  exact List.mem_append_right _ (List.mem_singleton_self _)

/-- What is in the end of a list but not in the window has a window's length behind it. -/
theorem lt_length_of_not_mem_rtake {n : Nat} {ids ids' : List String} {id : String}
    (h : id ∉ (ids ++ ids').rtake n) (hid : id ∈ ids') : n < ids'.length := by
  obtain ⟨place, hplace⟩ := List.mem_iff_getElem?.mp hid
  have hlt := lt_of_not_mem_rtake (i := ids.length + place) h (by
    rw [List.getElem?_append_right (Nat.le_add_right ..), Nat.add_sub_cancel_left]
    exact hplace)
  rw [List.length_append] at hlt
  omega

namespace Careful

variable {h : History} {log later between earlier : List (Entry σ)} {r e : Entry σ} {d : Delivery}

/-- Before it delivers an item, a poll has looked it up. Nothing was due before its read. -/
theorem looked (hlog : Careful p h log) (hsplit : log = later ++ e :: (between ++ r :: earlier))
    (hpoll : OfPoll r e d between) :
    d.identity = e.op.identity p ∧ Balanced (earlier.filter (·.task = e.task)) ∧
      Looked (d.identity, d.item.id) ((between ++ r :: earlier).filter (·.task = e.task)) := by
  obtain ⟨path, cursor, params, hread⟩ := hpoll.read
  have hchecked := hlog.checked
  rw [hsplit] at hchecked
  have hdispatch := EachGiven.of_append hchecked
  rw [Checked, hpoll.delivery] at hdispatch
  obtain ⟨hwho, hlooked⟩ := hdispatch
  have hearlier : Balanced (earlier.filter (·.task = e.task)) := by
    rw [← List.singleton_append, ← List.append_assoc, ← List.append_assoc] at hchecked
    have hreads := EachGiven.of_append hchecked
    rw [Checked, hread, hpoll.own] at hreads
    exact hreads
  refine ⟨hwho, hearlier, hlooked.resolve_left ?_⟩
  -- there was no update, neither since the read nor before it
  rintro ⟨e', he', hupdate⟩
  obtain ⟨hmem, htask⟩ := List.mem_filter.mp he'
  rcases List.mem_append.mp hmem with hmem | hmem
  · exact hupdate (hpoll.noUpdate e' hmem (of_decide_eq_true htask))
  · rcases List.mem_cons.mp hmem with rfl | hmem
    · rw [hread] at hupdate
      exact hupdate trivial
    · exact hupdate (hearlier.noUpdate e' (List.mem_filter.mpr ⟨hmem, htask⟩))

/-- What is not found has been pushed out, if it was remembered at the read or recorded since. -/
theorem not_mem (hlog : Careful p h log) (hb : h.Bounded) {newer older : List (Entry σ)}
    {check : Entry σ} {who : Identity} {id : String} (hr : r.recorded = none)
    (hsplit : log = newer ++ check :: (older ++ r :: earlier))
    (hmissed : check.missed = some (who, id)) :
    id ∉ (r.world.history.snapshot who ++ recordedUnder who older).rtake h.capacity := by
  have htold := hlog.told
  rw [hsplit] at htold
  have hcheck := EachGiven.of_append htold
  rw [← List.singleton_append, ← List.append_assoc, ← List.append_assoc] at htold
  have hread := (EachGiven.of_append htold).history
  have hhistory : check.world.history = r.world.history.recordAll (recordsIn older) := by
    rw [hcheck.history, recordsIn_append, recordsIn_cons_none hr, History.recordAll_append, ← hread]
  have hbounded : r.world.history.Bounded := by
    rw [hread]
    exact hb.recordAll _
  have hcapacity : r.world.history.capacity = h.capacity := by
    rw [hread, History.capacity_recordAll]
  intro hmem
  have hseen : check.world.history.seen who id = true := by
    rw [History.seen_iff, hhistory, hbounded.snapshot_recordAll, hcapacity]
    exact hmem
  rw [hcheck.missed who id hmissed] at hseen
  cases hseen

/-- The look-up before a delivery is later than the read, and the last thing that the poll did. -/
theorem exists_check (hlog : Careful p h log)
    (hsplit : log = later ++ e :: (between ++ r :: earlier)) (hpoll : OfPoll r e d between) :
    ∃ newer check older, between = newer ++ check :: older ∧ check.task = e.task ∧
      check.missed = some (d.identity, d.item.id) ∧ newer.filter (·.task = e.task) = [] ∧
      Balanced ((older ++ r :: earlier).filter (·.task = e.task)) := by
  obtain ⟨path, cursor, params, hread⟩ := hpoll.read
  obtain ⟨-, -, check, rest, hown, hmissed, hrest⟩ := hlog.looked hsplit hpoll
  obtain ⟨newer, past, hpast, hnewer, hcheck, rfl⟩ := List.filter_eq_cons_iff.mp hown
  have hne : check ≠ r := by
    rintro rfl
    rw [Entry.action_of_missed hmissed] at hread
    cases hread
  have hnot : r ∉ newer := fun hmem => hnewer r hmem (decide_eq_true hpoll.own)
  obtain ⟨older, hbetween, rfl⟩ := split_after hpast.symm hne hnot
  exact ⟨newer, check, older, hbetween, of_decide_eq_true hcheck, hmissed,
    List.filter_eq_nil_iff.mpr hnewer, hrest⟩

/-- What a poll had delivered before it looked the same id up again, it had recorded by then. -/
theorem mem_recordedUnder (hlog : Careful p h log) {newer older : List (Entry σ)} {e' : Entry σ}
    {d' : Delivery} (hsplit : log = later ++ e' :: (older ++ r :: earlier))
    (hpoll : OfPoll r e' d' older)
    (hrest : Balanced ((newer ++ e' :: (older ++ r :: earlier)).filter (·.task = e'.task))) :
    d'.item.id ∈ recordedUnder d'.identity newer := by
  obtain ⟨-, -, hlooked⟩ := hlog.looked hsplit hpoll
  have hoffered : e'.offered = some (d'.identity, d'.item.id) := by
    simp [Entry.offered, hpoll.delivery]
  have hrecorded : e'.recorded = none := by simp [Entry.recorded, hpoll.delivery]
  rw [List.filter_append, List.filter_cons_of_pos (by simp)] at hrest
  have hown := hrest.mem_recorded hlooked.balanced hoffered hrecorded
  obtain ⟨x, hx, hrec⟩ := List.mem_filterMap.mp hown
  refine List.mem_filterMap.mpr ⟨(d'.identity, d'.item.id), List.mem_reverse.mpr ?_, if_pos rfl⟩
  exact List.mem_filterMap.mpr ⟨x, (List.mem_filter.mp hx).1, hrec⟩

/-- What a poll delivers once more has been pushed out since it was recorded. -/
theorem lt_of_delivered (hlog : Careful p h log) {newer mid older : List (Entry σ)}
    {check e' : Entry σ} {d' : Delivery} {n : Nat}
    (hsplit : log = later ++ e :: (newer ++ check :: mid ++ e' :: older ++ r :: earlier))
    (hpoll : OfPoll r e d (newer ++ check :: mid ++ e' :: older)) (htask : e'.task = e.task)
    (hdispatch : e'.action = .dispatch d') (hid : d'.item.id = d.item.id)
    (hrest : Balanced ((mid ++ e' :: older ++ r :: earlier).filter (·.task = e.task)))
    (hnot : d.item.id ∉ (r.world.history.snapshot d.identity ++
      recordedUnder d.identity (mid ++ e' :: older)).rtake n) :
    n < (recordedUnder d.identity mid).length := by
  have hsplit' : log =
      (later ++ e :: (newer ++ check :: mid)) ++ e' :: (older ++ r :: earlier) := by
    rw [hsplit]
    simp
  have hpoll' : OfPoll r e' d' older := hpoll.earlier htask hdispatch
  have hwho : d'.identity = d.identity := by
    obtain ⟨hd, -⟩ := hlog.looked hsplit hpoll
    obtain ⟨hd', -⟩ := hlog.looked hsplit' hpoll'
    have hop : e'.op = e.op := by
      refine hlog.signed e' ?_ e ?_ htask
      · rw [hsplit']
        simp
      · rw [hsplit]
        simp
    rw [hd, hd', hop]
  have hrest' : Balanced ((mid ++ e' :: (older ++ r :: earlier)).filter (·.task = e'.task)) := by
    rw [htask]
    simpa using hrest
  have hmem := hlog.mem_recordedUnder hsplit' hpoll' hrest'
  rw [hwho, hid] at hmem
  rw [recordedUnder_append, ← List.append_assoc] at hnot
  exact lt_length_of_not_mem_rtake hnot hmem

theorem forgotten (hlog : Careful p h log) (hb : h.Bounded)
    (hsplit : log = later ++ e :: (between ++ r :: earlier)) (hpoll : OfPoll r e d between) :
    Forgotten h.capacity r e d between := by
  obtain ⟨newer, check, older, rfl, htask, hmissed, hnewer, hrest⟩ := hlog.exists_check hsplit hpoll
  obtain ⟨path, cursor, params, hread⟩ := hpoll.read
  have hseen : check.action = .seen d.identity d.item.id := Entry.action_of_missed hmissed
  have hr : r.recorded = none := by simp [Entry.recorded, hread]
  have hcheck : check.recorded = none := by simp [Entry.recorded, hseen]
  have hnot : d.item.id ∉ (r.world.history.snapshot d.identity ++
      recordedUnder d.identity older).rtake h.capacity := by
    have hsplit' : log = (later ++ e :: newer) ++ check :: (older ++ r :: earlier) := by
      rw [hsplit]
      simp
    exact hlog.not_mem hb hr hsplit' hmissed
  refine ⟨⟨newer, check, older, rfl, htask, hmissed, hnot⟩, ?remembered, ?delivered, ?own⟩
  case remembered =>
    intro place hplace
    have hlt := lt_of_not_mem_rtake hnot
      ((List.getElem?_append_left (List.getElem?_eq_some_iff.mp hplace).1).trans hplace)
    rw [recordedUnder_append, recordedUnder_cons_none hcheck, List.length_append]
    rw [List.length_append] at hlt
    omega
  case delivered =>
    intro newer' e' older' d' hbetween htask' hdispatch hid
    have hne : check ≠ e' := by
      rintro rfl
      rw [hseen] at hdispatch
      cases hdispatch
    have hlater : e' ∉ newer := fun hmem =>
      List.filter_eq_nil_iff.mp hnewer e' hmem (decide_eq_true htask')
    obtain ⟨mid, rfl, rfl⟩ := split_after hbetween hne hlater
    rw [hbetween] at hsplit hpoll
    have hlt := hlog.lt_of_delivered hsplit hpoll htask' hdispatch hid hrest hnot
    rw [recordedUnder_append, recordedUnder_cons_none hcheck, List.length_append]
    omega
  case own =>
    obtain ⟨-, hearlier, -⟩ := hlog.looked hsplit hpoll
    have hbefore : Balanced ((r :: earlier).filter (·.task = e.task)) := by
      rw [List.filter_cons_of_pos (by simpa using hpoll.own)]
      exact hearlier.cons (by rw [hread]; trivial) (by simp [Entry.offered, hread]) hr
    rw [List.filter_append] at hrest
    have hown := hrest.recorded hbefore
    rw [List.filter_append, hnewer, List.nil_append, List.filter_cons_of_pos (by simpa using htask),
      List.filterMap_cons_none hcheck, List.filterMap_cons_none (by simp [Entry.offered, hseen])]
    exact hown.symm

end Careful

/-- A poll delivers an id that was remembered when its read came back, or that it delivered before,
only when it has been forgotten meanwhile: after as many more were recorded as it takes to push it
out, by the poll itself or by operations beside it. -/
theorem forgotten_of_delivered (hskip : p.settings.skipDuplicates = true) {R : Rules p b}
    {w : World σ} (hb : w.history.Bounded) {c : Course σ} (hl : R.Later { world := w } c)
    {later between earlier : List (Entry σ)} {r e : Entry σ} {d : Delivery}
    (hlog : c.log = later ++ e :: (between ++ r :: earlier)) (hpoll : OfPoll r e d between) :
    Forgotten w.history.capacity r e d between := by
  obtain ⟨hchecked, -, -⟩ := hl.ownPast (plan_checked hskip)
  refine Careful.forgotten ⟨hl.faithful.told, hchecked, ?_⟩ hb hlog hpoll
  intro x hx y hy htask
  obtain ⟨t, ht, hop⟩ := hl.signed x hx
  obtain ⟨t', ht', hop'⟩ := hl.signed y hy
  rw [htask, ht'] at ht
  rw [← hop, ← hop', Option.some.inj ht]

/-- The first read gives one item, and the second gives it between two others. -/
def turnover : Script where
  reads := [⟨.ok [⟨"a", .null, []⟩], none⟩,
    ⟨.ok [⟨"b", .null, []⟩, ⟨"a", .null, []⟩, ⟨"b", .null, []⟩], none⟩]

def turnoverStart : World Script where
  backend := { turnover with created := 1 }
  history := .new 1 true

/-- Two cycles where one id is remembered: the second delivers all that it reads. -/
def turnedOver : Course Script :=
  let first := (List.replicate 10 0).foldl (Course.act lastOnly Script.backend)
    (({ world := turnoverStart } : Course Script).begin lastOnly .cycle)
  (List.replicate 16 1).foldl (Course.act lastOnly Script.backend) (first.begin lastOnly .cycle)

theorem turnedOver_later :
    (inSequence lastOnly Script.backend).Later { world := turnoverStart } turnedOver := by
  refine (Rules.Later.begin (Rules.Later.turns (Rules.Later.begin .refl ?_) _) ?_).turns _
  · show Course.Idle _
    decide
  · show Course.Idle _
    decide

/-- The deliveries of the second cycle, after what was done since its read. -/
theorem turnedOver_ofPoll :
    OfPoll turnedOver.log[12] turnedOver.log[7] ⟨⟨"a", .null, []⟩, none, none⟩
        ((turnedOver.log.drop 8).take 4) ∧
      OfPoll turnedOver.log[12] turnedOver.log[4] ⟨⟨"b", .null, []⟩, none, none⟩
        ((turnedOver.log.drop 5).take 7) := by
  refine ⟨⟨rfl, ⟨_, _, _, rfl⟩, rfl, ?_⟩, ⟨rfl, ⟨_, _, _, rfl⟩, rfl, ?_⟩⟩
  · decide
  · decide

/-- The id that was remembered when the read came back is delivered, and another one twice. -/
theorem turnedOver_delivers_again :
    (inSequence lastOnly Script.backend).Reached .acceptAll turnover turnedOver ∧
      (∃ later between earlier r e d, turnedOver.log = later ++ e :: (between ++ r :: earlier) ∧
        OfPoll r e d between ∧ d.item.id ∈ r.world.history.snapshot d.identity) ∧
      ∃ later between earlier r e d, turnedOver.log = later ++ e :: (between ++ r :: earlier) ∧
        OfPoll r e d between ∧
        ∃ e' ∈ between, e'.task = e.task ∧ e'.offered = some (d.identity, d.item.id) := by
  refine ⟨⟨_, rfl, turnedOver_later⟩, ?_, ?_⟩
  · refine ⟨turnedOver.log.take 7, _, turnedOver.log.drop 13, _, _, _, ?_, turnedOver_ofPoll.1, ?_⟩
    · rfl
    · decide
  · refine ⟨turnedOver.log.take 4, _, turnedOver.log.drop 13, _, _, _, ?_, turnedOver_ofPoll.2,
      turnedOver.log[10], ?_, ?_, ?_⟩
    · rfl
    · exact List.mem_of_getElem? (i := 5) rfl
    · rfl
    · rfl

theorem turnedOver_forgotten_of_delivered :
    lastOnly.settings.skipDuplicates = true ∧ turnoverStart.history.Bounded ∧
      (inSequence lastOnly Script.backend).Later { world := turnoverStart } turnedOver ∧
      Forgotten 1 turnedOver.log[12] turnedOver.log[7] ⟨⟨"a", .null, []⟩, none, none⟩
        ((turnedOver.log.drop 8).take 4) ∧
      recordedUnder .shared ((turnedOver.log.drop 8).take 4) = ["b"] := by
  have hb : turnoverStart.history.Bounded := History.bounded_new ..
  have hlog : turnedOver.log = turnedOver.log.take 7 ++ turnedOver.log[7] ::
    ((turnedOver.log.drop 8).take 4 ++ turnedOver.log[12] :: turnedOver.log.drop 13) := rfl
  have h := forgotten_of_delivered rfl hb turnedOver_later hlog turnedOver_ofPoll.1
  exact ⟨rfl, hb, turnedOver_later, h, by decide⟩

end FeedPoller
