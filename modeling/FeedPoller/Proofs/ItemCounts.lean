import FeedPoller.Backend.Script
import FeedPoller.Proofs.Bookkeeping
import FeedPoller.Proofs.Walks
import Mathlib.Algebra.BigOperators.Group.Finset.Piecewise
import Mathlib.Algebra.GroupWithZero.Nat
import Mathlib.Algebra.Order.BigOperators.Group.Finset

/-! What the counters of items tell. A poll counts what became of its items when it has offered the last
of them; one whose delivery is refused counts nothing, and an update does not count its item at all.
Main statement: in every course without operations under way the counters have missed just that, and so
they are exact only if no poll was cut short and no item of an update was recorded
(`item_counts_of_later`). -/

namespace FeedPoller

variable {σ α : Type} {p : Poller} {b : Backend σ}

/-! ## Figures -/

/-- What a step adds to a counter. -/
def Answered.counts (counter : Counter) : Answered → Nat
  | ⟨.count k n, _⟩ => if k = counter then n else 0
  | _ => 0

namespace Answered

/-- An item that was left out as a repeated one or handed downstream. -/
def handled : Answered → Nat
  | ⟨.seen _ _, true⟩ => 1
  | ⟨.dispatch _, _⟩ => 1
  | _ => 0

def leftOut : Answered → Nat
  | ⟨.seen _ _, true⟩ => 1
  | _ => 0

def accepted : Answered → Nat
  | ⟨.dispatch _, .ok ()⟩ => 1
  | _ => 0

def refused : Answered → Nat
  | ⟨.dispatch _, .error _⟩ => 1
  | _ => 0

def recorded : Answered → Nat
  | ⟨.record _ _, _⟩ => 1
  | _ => 0

/-- The items that a read gave. -/
def returned : Answered → Nat
  | ⟨.read .., .ok items⟩ => items.length
  | _ => 0

def isUpdate : Answered → Bool
  | ⟨.update .., _⟩ => true
  | _ => false

end Answered

open Answered

/-- The counters of items. -/
def Counter.ofItems : List Counter := [.fetched, .dispatched, .skipped]

theorem Counter.forall_ofItems {P : Counter → Prop} :
    (∀ k ∈ Counter.ofItems, P k) ↔ P .fetched ∧ P .dispatched ∧ P .skipped := by
  simp [ofItems]

/-- The items that a counter is for. -/
def Counter.figure : Counter → Answered → Nat
  | .fetched => handled
  | .dispatched => recorded
  | .skipped => leftOut
  | _ => fun _ => 0

/-- A figure over many steps. -/
def tally (figure : Answered → Nat) (steps : List Answered) : Nat := (steps.map figure).sum

@[simp] theorem tally_nil (figure : Answered → Nat) : tally figure [] = 0 := rfl

@[simp] theorem tally_cons (figure : Answered → Nat) (step : Answered) (steps : List Answered) :
    tally figure (step :: steps) = figure step + tally figure steps := List.sum_cons

@[simp] theorem tally_append (figure : Answered → Nat) (steps steps' : List Answered) :
    tally figure (steps ++ steps') = tally figure steps + tally figure steps' := by
  simp [tally]

/-! ## Steps that tell nothing -/

/-- Actions that have nothing to do with items. -/
def Action.IsBlank : Action → Prop
  | .count counter _ => counter ∉ Counter.ofItems
  | .read .. | .update .. | .seen .. | .dispatch _ | .record .. => False
  | _ => True

structure Blank (steps : List Answered) : Prop where
  noUpdate : ∀ step ∈ steps, step.isUpdate = false
  counts : ∀ k ∈ Counter.ofItems, tally (Answered.counts k) steps = 0
  figure : ∀ k ∈ Counter.ofItems, tally k.figure steps = 0
  accepted : tally accepted steps = 0
  refused : tally refused steps = 0
  returned : tally returned steps = 0

theorem Blank.nil : Blank [] :=
  ⟨by simp, fun _ _ => rfl, fun _ _ => rfl, rfl, rfl, rfl⟩

theorem Blank.one {action : Action} (h : action.IsBlank) (reply : action.Reply) :
    Blank [⟨action, reply⟩] := by
  have hfigure : ∀ k ∈ Counter.ofItems, tally k.figure [⟨action, reply⟩] = 0 := by
    intro k hk
    simp only [Counter.ofItems, List.mem_cons, List.not_mem_nil, or_false] at hk
    cases action with
    | read | update | seen | dispatch | record => exact h.elim
    | _ => obtain rfl | rfl | rfl := hk <;> rfl
  cases action with
  | count counter n =>
    refine ⟨by simp [isUpdate], ?_, hfigure, rfl, rfl, rfl⟩
    intro k hk
    have hne : counter ≠ k := fun heq => h (heq ▸ hk)
    simp [Answered.counts, hne]
  | read | update | seen | dispatch | record => exact h.elim
  | _ => exact ⟨by simp [isUpdate], fun _ _ => rfl, hfigure, rfl, rfl, rfl⟩

/-! ## What polls and updates count -/

/-- A poll counts what became of its items if it has offered the last one, and else nothing. -/
structure PollCounts (steps : List Answered) : Prop where
  noUpdate : ∀ step ∈ steps, step.isUpdate = false
  counts : ∀ k ∈ Counter.ofItems, tally (Answered.counts k) steps =
    if tally refused steps = 0 then tally k.figure steps else 0
  kept : tally accepted steps = tally recorded steps
  whole : tally refused steps = 0 → tally handled steps = tally returned steps
  part : tally handled steps ≤ tally returned steps

theorem Blank.pollCounts {steps : List Answered} (h : Blank steps) : PollCounts steps where
  noUpdate := h.noUpdate
  counts k hk := by rw [h.refused, h.figure k hk, h.counts k hk, if_pos rfl]
  kept := h.accepted.trans (h.figure .dispatched (by decide)).symm
  whole _ := (h.figure .fetched (by decide)).trans h.returned.symm
  part := by
    have hnone : tally handled steps = 0 := h.figure .fetched (by decide)
    omega

/-- Steps that tell nothing of items, before or after, change nothing. -/
theorem PollCounts.surround {before steps after : List Answered} (h : PollCounts steps)
    (hbefore : Blank before) (hafter : Blank after) : PollCounts (before ++ steps ++ after) := by
  have hrecorded : ∀ {l : List Answered}, Blank l → tally recorded l = 0 :=
    fun hl => hl.figure .dispatched (by decide)
  have hhandled : ∀ {l : List Answered}, Blank l → tally handled l = 0 :=
    fun hl => hl.figure .fetched (by decide)
  refine { noUpdate := ?_, counts := ?_, kept := ?_, whole := ?_, part := ?_ }
  · intro step hstep
    obtain hstep | hstep := List.mem_append.mp hstep
    · obtain hstep | hstep := List.mem_append.mp hstep
      · exact hbefore.noUpdate step hstep
      · exact h.noUpdate step hstep
    · exact hafter.noUpdate step hstep
  · intro k hk
    simpa [hbefore.counts k hk, hafter.counts k hk, hbefore.figure k hk, hafter.figure k hk,
      hbefore.refused, hafter.refused] using h.counts k hk
  · simpa [hbefore.accepted, hafter.accepted, hrecorded hbefore, hrecorded hafter] using h.kept
  · simpa [hbefore.refused, hafter.refused, hhandled hbefore, hhandled hafter, hbefore.returned,
      hafter.returned] using h.whole
  · simpa [hhandled hbefore, hhandled hafter, hbefore.returned, hafter.returned] using h.part

/-- An update counts nothing. -/
structure UpdateCounts (steps : List Answered) : Prop where
  update : ∀ step ∈ steps.head?, step.isUpdate = true
  counts : ∀ k ∈ Counter.ofItems, tally (Answered.counts k) steps = 0
  leftOut : tally leftOut steps = 0
  kept : tally accepted steps = tally recorded steps

theorem UpdateCounts.nil : UpdateCounts [] := ⟨by simp, fun _ _ => rfl, rfl, rfl⟩

theorem UpdateCounts.append {steps after : List Answered} (h : UpdateCounts steps)
    (hne : steps ≠ []) (hafter : Blank after) : UpdateCounts (steps ++ after) where
  update step hstep := by
    rw [List.head?_append_of_ne_nil _ hne] at hstep
    exact h.update step hstep
  counts k hk := by rw [tally_append, h.counts k hk, hafter.counts k hk]
  leftOut := by
    have hleftOut : tally Answered.leftOut after = 0 := hafter.figure .skipped (by decide)
    rw [tally_append, h.leftOut, hleftOut]
  kept := by
    have hrecorded : tally recorded after = 0 := hafter.figure .dispatched (by decide)
    rw [tally_append, tally_append, h.kept, hafter.accepted, hrecorded]

/-- Delivering an item: it is recorded if it was accepted. -/
theorem deliver_steps {who : Identity} {creds : CredentialSet} {item : Item}
    {steps : List Answered} {result : Except Failure Unit}
    (h : (Poller.deliver who creds item).ComesTo steps result) :
    (∃ reason, result = .error (.dispatch reason) ∧
        steps = [⟨.dispatch (.of item creds), .error reason⟩]) ∨
      result = .ok () ∧ steps =
        [⟨.dispatch (.of item creds), .ok ()⟩, ⟨.record who item.id, ()⟩] := by
  obtain ⟨reply, after, rfl, hafter⟩ := h.one_bind
  match reply with
  | .error reason =>
    obtain ⟨rfl, rfl⟩ := hafter.pure
    exact .inl ⟨reason, rfl, rfl⟩
  | .ok () =>
    obtain ⟨_, rest, rfl, hrest⟩ := Plan.ComesTo.one_bind hafter
    obtain ⟨rfl, rfl⟩ := hrest.pure
    exact .inr ⟨rfl, rfl⟩

theorem isRepeated_steps {who : Identity} {id : String} {steps : List Answered} {repeated : Bool}
    (h : (p.isRepeated who id).ComesTo steps repeated) :
    repeated = true ∧ steps = [⟨.seen who id, true⟩] ∨
      repeated = false ∧ (steps = [] ∨ steps = [⟨.seen who id, false⟩]) := by
  unfold Poller.isRepeated at h
  split at h
  · cases repeated with
    | true => exact .inl ⟨rfl, h.one⟩
    | false => exact .inr ⟨rfl, .inr h.one⟩
  · obtain ⟨rfl, rfl⟩ := h.pure
    exact .inr ⟨rfl, .inl rfl⟩

/-- What became of one item, and how the report tells it. -/
structure ItemCounts (report : CycleReport) (steps : List Answered) (report' : CycleReport) :
    Prop where
  noUpdate : ∀ step ∈ steps, step.isUpdate = false
  counts : ∀ k ∈ Counter.ofItems, tally (Answered.counts k) steps = 0
  kept : tally accepted steps = tally recorded steps
  refused : tally refused steps = 0
  noRead : tally returned steps = 0
  one : tally handled steps = 1
  fetched : report'.fetched = report.fetched + 1
  dispatched : report'.dispatched = report.dispatched + tally recorded steps
  skipped : report'.skipped = report.skipped + tally leftOut steps

/-- What became of items that were offered, and how the report tells it. -/
structure OfferCounts (items : List Item) (report : CycleReport) (steps : List Answered)
    (result : Except Failure CycleReport) : Prop where
  noUpdate : ∀ step ∈ steps, step.isUpdate = false
  counts : ∀ k ∈ Counter.ofItems, tally (Answered.counts k) steps = 0
  kept : tally accepted steps = tally recorded steps
  noRead : tally returned steps = 0
  part : tally handled steps ≤ items.length
  error : ∀ e, result = .error e → tally refused steps ≠ 0
  ok : ∀ report', result = .ok report' → tally refused steps = 0 ∧
    tally handled steps = items.length ∧
    report'.fetched = report.fetched + tally handled steps ∧
    report'.dispatched = report.dispatched + tally recorded steps ∧
    report'.skipped = report.skipped + tally leftOut steps

theorem OfferCounts.cons {item : Item} {rest : List Item} {report report' : CycleReport}
    {own after : List Answered} {result : Except Failure CycleReport}
    (h : OfferCounts rest report' after result) (hown : ItemCounts report own report') :
    OfferCounts (item :: rest) report (own ++ after) result where
  noUpdate step hstep := (List.mem_append.mp hstep).elim (hown.noUpdate step) (h.noUpdate step)
  counts k hk := by rw [tally_append, hown.counts k hk, h.counts k hk]
  kept := by rw [tally_append, tally_append, hown.kept, h.kept]
  noRead := by rw [tally_append, hown.noRead, h.noRead]
  part := by
    have := h.part
    rw [tally_append, hown.one, List.length_cons]
    omega
  error e he := by
    have := h.error e he
    rw [tally_append, hown.refused]
    omega
  ok final hfinal := by
    obtain ⟨hrefused, hhandled, hfetched, hdispatched, hskipped⟩ := h.ok final hfinal
    have := hown.fetched
    have := hown.dispatched
    have := hown.skipped
    simp only [tally_append, hown.refused, hown.one, List.length_cons]
    omega

theorem offer_counts {who : Identity} {creds : CredentialSet} {items : List Item}
    {report : CycleReport} {steps : List Answered} {result : Except Failure CycleReport}
    (h : (p.offer who creds items report).ComesTo steps result) :
    OfferCounts items report steps result := by
  induction items generalizing report steps with
  | nil =>
    obtain ⟨rfl, rfl⟩ := h.pure
    refine ⟨by simp, fun _ _ => rfl, rfl, rfl, Nat.zero_le _, fun _ h => (by cases h), ?_⟩
    rintro _ ⟨rfl⟩
    exact ⟨rfl, rfl, rfl, rfl, rfl⟩
  | cons item rest ih =>
    obtain ⟨repeated, looked, after, rfl, hlooked, hafter⟩ := h.bind
    obtain ⟨rfl, rfl⟩ | ⟨rfl, hnew⟩ := isRepeated_steps hlooked
    · refine (ih hafter).cons ?_
      exact ⟨by simp [isUpdate], fun _ _ => rfl, rfl, rfl, rfl, rfl, rfl, rfl, rfl⟩
    · obtain ⟨delivered, own, others, rfl, hown, hothers⟩ := Plan.ComesTo.bind hafter
      obtain ⟨reason, rfl, rfl⟩ | ⟨rfl, rfl⟩ := deliver_steps hown
      · obtain ⟨rfl, rfl⟩ := hothers.pure
        obtain rfl | rfl := hnew
        · exact ⟨by simp [isUpdate], fun _ _ => rfl, rfl, rfl, by simp [handled],
            fun _ _ => by simp [Answered.refused], fun _ h => by cases h⟩
        · exact ⟨by simp [isUpdate], fun _ _ => rfl, rfl, rfl, by simp [handled],
            fun _ _ => by simp [Answered.refused], fun _ h => by cases h⟩
      · rw [← List.append_assoc]
        refine (ih hothers).cons ?_
        obtain rfl | rfl := hnew
        · exact ⟨by simp [isUpdate], fun _ _ => rfl, rfl, rfl, rfl, rfl, rfl, rfl, rfl⟩
        · exact ⟨by simp [isUpdate], fun _ _ => rfl, rfl, rfl, rfl, rfl, rfl, rfl, rfl⟩

/-- A read whose items were not all offered: nothing is counted. -/
theorem OfferCounts.cutShort {path : PathId} {cursor : Option String} {params : Json.Fields}
    {items : List Item} {steps : List Answered} {e : Failure}
    (h : OfferCounts items {} steps (.error e)) :
    PollCounts (⟨.read path cursor params, .ok items⟩ :: steps) := by
  have hrefused : tally refused steps ≠ 0 := h.error e rfl
  refine { noUpdate := ?_, counts := ?_, kept := ?_, whole := ?_, part := ?_ }
  · exact List.forall_mem_cons.mpr ⟨rfl, h.noUpdate⟩
  · intro k hk
    simp [Answered.counts, refused, h.counts k hk, hrefused]
  · simpa [accepted, recorded] using h.kept
  · simp [refused, hrefused]
  · simpa [handled, returned, h.noRead] using h.part

/-- A read whose items were all offered: what became of them is counted. -/
theorem OfferCounts.finished {path : PathId} {cursor : Option String} {params : Json.Fields}
    {items : List Item} {steps : List Answered} {report : CycleReport}
    (h : OfferCounts items {} steps (.ok report)) :
    PollCounts (⟨.read path cursor params, .ok items⟩ :: (steps ++
      [⟨.count .fetched report.fetched, ()⟩, ⟨.count .dispatched report.dispatched, ()⟩,
        ⟨.count .skipped report.skipped, ()⟩])) := by
  obtain ⟨hrefused, hhandled, hfetched, hdispatched, hskipped⟩ := h.ok report rfl
  have hcounts := Counter.forall_ofItems.mp h.counts
  refine { noUpdate := ?_, counts := ?_, kept := ?_, whole := ?_, part := ?_ }
  · refine List.forall_mem_cons.mpr ⟨rfl, fun step hstep => ?_⟩
    obtain hstep | hstep := List.mem_append.mp hstep
    · exact h.noUpdate step hstep
    · simp only [List.mem_cons, List.not_mem_nil, or_false] at hstep
      obtain rfl | rfl | rfl := hstep <;> rfl
  · rw [Counter.forall_ofItems]
    simp [Answered.counts, refused, handled, recorded, leftOut, Counter.figure, hrefused, hcounts,
      hfetched, hdispatched, hskipped]
  · simpa [accepted, recorded] using h.kept
  · simpa [refused, handled, returned, h.noRead] using fun _ => hhandled
  · simpa [handled, returned, h.noRead] using h.part

theorem poll_counts {path : PathId} {who : Identity} {cursor : Option String}
    {params : Json.Fields} {creds : CredentialSet} {steps : List Answered}
    {result : Except Failure CycleReport}
    (h : (p.poll path who cursor params creds).ComesTo steps result) : PollCounts steps := by
  obtain ⟨reply, after, rfl, hafter⟩ := h.one_bind
  match reply with
  | .error (.rateLimited asked) =>
    obtain ⟨_, rest, rfl, hrest⟩ := Plan.ComesTo.one_bind hafter
    obtain ⟨wait, last, rfl, hlast⟩ := Plan.ComesTo.one_bind hrest
    obtain ⟨rfl, -⟩ := hlast.pure
    refine ⟨by simp [isUpdate], ?_, rfl, fun _ => rfl, Nat.le_refl _⟩
    exact Counter.forall_ofItems.mpr ⟨rfl, rfl, rfl⟩
  | .error (.fetch e) =>
    obtain ⟨_, rest, rfl, hrest⟩ := Plan.ComesTo.one_bind hafter
    obtain ⟨rfl, -⟩ := hrest.pure
    refine ⟨by simp [isUpdate], ?_, rfl, fun _ => rfl, Nat.le_refl _⟩
    exact Counter.forall_ofItems.mpr ⟨rfl, rfl, rfl⟩
  | .ok items =>
    obtain ⟨offered, own, rest, rfl, hown, hrest⟩ := Plan.ComesTo.bind hafter
    match offered with
    | .error e =>
      obtain ⟨rfl, -⟩ := hrest.pure
      rw [List.append_nil]
      exact (offer_counts hown).cutShort
    | .ok report =>
      obtain ⟨_, rest₁, rfl, h₁⟩ := Plan.ComesTo.one_bind hrest
      obtain ⟨_, rest₂, rfl, h₂⟩ := Plan.ComesTo.one_bind h₁
      obtain ⟨_, rest₃, rfl, h₃⟩ := Plan.ComesTo.one_bind h₂
      obtain ⟨rfl, -⟩ := h₃.pure
      exact (offer_counts hown).finished

theorem submit_counts {path : PathId} {who : Identity} {payload : Option Json.Value}
    {headers : Json.Fields} {creds : CredentialSet} {steps : List Answered}
    {result : Except Failure Bool}
    (h : (Poller.submit path who payload headers creds).ComesTo steps result) :
    ∃ before posted, steps = before ++ posted ∧ Blank before ∧ UpdateCounts posted := by
  unfold Poller.submit at h
  split at h
  · obtain ⟨rfl, -⟩ := h.pure
    exact ⟨[], [], rfl, .nil, .nil⟩
  · obtain ⟨_, after, rfl, hafter⟩ := h.one_bind
    obtain ⟨reply, own, rfl, hown⟩ := Plan.ComesTo.one_bind hafter
    refine ⟨[_], _, rfl, .one (by simp [Action.IsBlank, Counter.ofItems]) _, ?_⟩
    match reply with
    | .error _ =>
      obtain ⟨_, rest, rfl, hrest⟩ := Plan.ComesTo.one_bind hown
      obtain ⟨rfl, -⟩ := hrest.pure
      exact ⟨by simp [isUpdate], Counter.forall_ofItems.mpr ⟨rfl, rfl, rfl⟩, rfl, rfl⟩
    | .ok none =>
      obtain ⟨rfl, -⟩ := hown.pure
      exact ⟨by simp [isUpdate], fun _ _ => rfl, rfl, rfl⟩
    | .ok (some item) =>
      obtain ⟨delivered, gave, rest, rfl, hgave, hrest⟩ := Plan.ComesTo.bind hown
      obtain ⟨reason, rfl, rfl⟩ | ⟨rfl, rfl⟩ := deliver_steps hgave
      · obtain ⟨rfl, -⟩ := hrest.pure
        exact ⟨by simp [isUpdate], fun _ _ => rfl, rfl, rfl⟩
      · obtain ⟨rfl, -⟩ := hrest.pure
        exact ⟨by simp [isUpdate], fun _ _ => rfl, rfl, rfl⟩

/-! ## What operations count -/

/-- What an operation did before its update, or all if it made none. -/
def beforeUpdate (steps : List Answered) : List Answered := steps.takeWhile (!·.isUpdate)

/-- What it did from its update on. -/
def fromUpdate (steps : List Answered) : List Answered := steps.dropWhile (!·.isUpdate)

structure OperationCounts (steps : List Answered) : Prop where
  poll : PollCounts (beforeUpdate steps)
  update : UpdateCounts (fromUpdate steps)

theorem OperationCounts.of_append {polled posted : List Answered} (h : PollCounts polled)
    (h' : UpdateCounts posted) : OperationCounts (polled ++ posted) := by
  have hpolled : ∀ step ∈ polled, (!step.isUpdate) = true := by
    intro step hstep
    rw [h.noUpdate step hstep]
    rfl
  have hbefore : beforeUpdate (polled ++ posted) = polled := by
    rw [beforeUpdate, List.takeWhile_append_of_pos hpolled]
    cases posted with
    | nil => simp
    | cons step rest => simp [h'.update step rfl]
  have hfrom : fromUpdate (polled ++ posted) = posted := by
    rw [fromUpdate, List.dropWhile_append_of_pos hpolled]
    cases posted with
    | nil => rfl
    | cons step rest => simp [h'.update step rfl]
  rw [← hbefore] at h
  rw [← hfrom] at h'
  exact ⟨h, h'⟩

theorem OperationCounts.of_poll {steps : List Answered} (h : PollCounts steps) :
    OperationCounts steps := by
  have := of_append h .nil
  rwa [List.append_nil] at this

theorem OperationCounts.surround {before steps after : List Answered} (h : OperationCounts steps)
    (hbefore : Blank before) (hafter : Blank after) : OperationCounts (before ++ steps ++ after) := by
  have hsteps : beforeUpdate steps ++ fromUpdate steps = steps := List.takeWhile_append_dropWhile
  rw [← hsteps, ← List.append_assoc]
  cases hposted : fromUpdate steps with
  | nil =>
    rw [List.append_nil]
    exact .of_poll (h.poll.surround hbefore hafter)
  | cons step rest =>
    have hpoll := h.poll.surround hbefore .nil
    rw [List.append_nil] at hpoll
    rw [List.append_assoc]
    refine .of_append hpoll ?_
    exact (hposted ▸ h.update).append (by simp) hafter

/-- An action that tells nothing of items comes first. -/
theorem OperationCounts.cons {action : Action} {steps : List Answered} (h : OperationCounts steps)
    (haction : action.IsBlank) (reply : action.Reply) :
    OperationCounts (⟨action, reply⟩ :: steps) := by
  have hsteps := h.surround (.one haction reply) .nil
  rwa [List.append_nil] at hsteps

theorem OperationCounts.nil : OperationCounts [] := .of_poll Blank.nil.pollCounts

theorem withSession_counts {path : PathId} {creds : CredentialSet}
    {plan : Plan (Except Failure α)}
    (hplan : ∀ {steps result}, plan.ComesTo steps result → OperationCounts steps)
    {steps : List Answered} {result : Except Failure α}
    (h : (Poller.withSession path creds plan).ComesTo steps result) : OperationCounts steps := by
  unfold Poller.withSession at h
  split at h
  · exact hplan h
  · obtain ⟨reply, after, rfl, hafter⟩ := h.one_bind
    refine OperationCounts.cons ?_ (by trivial) reply
    match reply with
    | .error e =>
      obtain ⟨rfl, -⟩ := hafter.pure
      exact .nil
    | .ok () =>
      obtain ⟨_, inner, rest, rfl, hinner, hrest⟩ := Plan.ComesTo.bind hafter
      obtain ⟨_, last, rfl, hlast⟩ := Plan.ComesTo.one_bind hrest
      obtain ⟨rfl, -⟩ := hlast.pure
      exact (hplan hinner).surround .nil (.one (by trivial) _)

theorem runCycle_counts {steps : List Answered} {result : Except Failure CycleReport}
    (h : p.runCycle.ComesTo steps result) : OperationCounts steps := by
  obtain ⟨s, after, rfl, hafter⟩ := h.one_bind
  refine OperationCounts.cons ?_ (by trivial) s
  split at hafter
  · obtain ⟨rfl, -⟩ := hafter.pure
    exact .nil
  · obtain ⟨_, rest, rfl, hrest⟩ := hafter.one_bind
    refine OperationCounts.cons ?_ (by simp [Action.IsBlank, Counter.ofItems]) _
    split at hrest
    · obtain ⟨rfl, -⟩ := hrest.pure
      exact .nil
    · obtain ⟨cursor, inner, rfl, hinner⟩ := hrest.one_bind
      refine OperationCounts.cons ?_ (by trivial) cursor
      exact withSession_counts (fun h => .of_poll (poll_counts h)) hinner

theorem commandPoll_counts {path : PathId} {who : Identity} {creds : CredentialSet} {c : Command}
    {steps : List Answered} {result : Except Failure (Option CycleReport)}
    (h : (p.commandPoll path who creds c).ComesTo steps result) : PollCounts steps := by
  unfold Poller.commandPoll at h
  split at h
  · obtain ⟨cursor, before, after, rfl, hbefore, hafter⟩ := h.bind
    obtain ⟨_, hinner⟩ := hafter.of_bind_pure fun polled => by cases polled <;> exact ⟨_, rfl⟩
    have hblank : Blank before := by
      unfold Poller.startOf at hbefore
      split at hbefore
      · rw [hbefore.pure.1]
        exact .nil
      · rw [hbefore.one]
        exact .one (by trivial) _
    have hpoll := (poll_counts hinner).surround hblank .nil
    rwa [List.append_nil] at hpoll
  · rw [h.pure.1]
    exact Blank.nil.pollCounts

theorem commandUpdate_counts {path : PathId} {who : Identity} {creds : CredentialSet} {c : Command}
    {steps : List Answered} {result : Except Failure (Option Bool)}
    (h : (Poller.commandUpdate path who creds c).ComesTo steps result) :
    ∃ before posted, steps = before ++ posted ∧ Blank before ∧ UpdateCounts posted := by
  unfold Poller.commandUpdate at h
  split at h
  · obtain ⟨_, hinner⟩ := h.of_bind_pure fun updated => by cases updated <;> exact ⟨_, rfl⟩
    exact submit_counts hinner
  · exact ⟨[], [], h.pure.1, .nil, .nil⟩

theorem handle_counts {c : Command} {steps : List Answered}
    {result : Except Failure CommandReport} (h : (p.handle c).ComesTo steps result) :
    OperationCounts steps := by
  unfold Poller.handle at h
  dsimp only at h
  split at h
  · rw [h.pure.1]
    exact .nil
  · obtain ⟨reply, after, rfl, hafter⟩ := h.one_bind
    refine OperationCounts.cons ?_ (by trivial) reply
    match reply with
    | .error e =>
      rw [hafter.pure.1]
      exact .nil
    | .ok path =>
      refine withSession_counts (fun {steps result} h => ?_) hafter
      obtain ⟨polled, first, rest, rfl, hfirst, hrest⟩ := h.bind
      have hpoll := commandPoll_counts hfirst
      match polled with
      | .error e =>
        rw [hrest.pure.1, List.append_nil]
        exact .of_poll hpoll
      | .ok poll =>
        obtain ⟨_, hsecond⟩ := Plan.ComesTo.of_bind_pure hrest fun updated => by
          cases updated <;> exact ⟨_, rfl⟩
        obtain ⟨before, posted, rfl, hbefore, hposted⟩ := commandUpdate_counts hsecond
        have hbeforeUpdate := hpoll.surround .nil hbefore
        rw [← List.append_assoc]
        exact .of_append hbeforeUpdate hposted

theorem plan_counts {op : Operation} {steps : List Answered} {outcome : Outcome}
    (h : (op.plan p).ComesTo steps outcome) : OperationCounts steps := by
  cases op with
  | cycle =>
    obtain ⟨_, hinner⟩ := h.of_bind_pure fun _ => ⟨_, rfl⟩
    exact runCycle_counts hinner
  | tick =>
    obtain ⟨_, hinner⟩ := h.of_bind_pure fun ticked => by cases ticked <;> exact ⟨_, rfl⟩
    obtain ⟨s, after, rfl, hafter⟩ := hinner.one_bind
    refine OperationCounts.cons ?_ (by trivial) s
    split at hafter
    · rw [hafter.pure.1]
      exact .nil
    · obtain ⟨_, hcycle⟩ := hafter.of_bind_pure fun _ => ⟨_, rfl⟩
      exact runCycle_counts hcycle
  | command c =>
    obtain ⟨_, hinner⟩ := h.of_bind_pure fun _ => ⟨_, rfl⟩
    exact handle_counts hinner

/-! ## In every course -/

theorem Counters.count_add (counters : Counters) (k k' : Counter) (n : Nat) :
    (counters.add k n).count k' = counters.count k' + if k = k' then n else 0 := by
  by_cases hk : k = k'
  · subst hk
    rw [count, add, Named.get?_insert_self, if_pos rfl]
    rfl
  · have hname : k'.name ≠ k.name := by
      revert hk
      cases k <;> cases k' <;> decide
    rw [count, add, Named.get?_insert_of_ne _ _ hname, if_neg hk]
    rfl

theorem World.counters_perform (w : World σ) (action : Action) (k : Counter) :
    (w.perform p b action).2.counters.count k =
      w.counters.count k + counts k ⟨action, (w.perform p b action).1.value⟩ := by
  cases action with
  | count counter n => exact w.counters.count_add counter k n
  | _ => rfl

/-- The counters have grown by what all operations counted. -/
theorem Rules.Later.counters {R : Rules p b} {w : World σ} {c : Course σ}
    (hl : R.Later { world := w } c) (k : Counter) :
    c.world.counters.count k = w.counters.count k + tally (counts k) (c.log.map Entry.answered) := by
  induction hl with
  | refl => rfl
  | @tail c c' hl hs ih =>
    cases hs with
    | begin => exact ih
    | @act i op action next hi =>
      refine (World.counters_perform c.world action k).trans ?_
      rw [ih, Chronicle.perform, List.map_cons, tally_cons]
      change _ = _ + (counts k ⟨action, (c.world.perform p b action).1.value⟩ + _)
      omega
    | meanwhile hw =>
      refine Eq.trans ?_ ih
      cases hw <;> rfl

/-- A figure over all operations. -/
def Course.total (c : Course σ) (figure : List Answered → Nat) : Nat :=
  ∑ i ∈ Finset.range c.tasks.length, figure (c.walk i)

theorem tally_walk (figure : Answered → Nat) (c : Chronicle σ) (i : Nat) :
    tally figure (c.walk i) = tally figure ((c.own i).map Entry.answered) := by
  rw [Chronicle.walk, tally, List.map_reverse, List.sum_reverse]
  rfl

/-- Whatever was done was done by some operation. -/
theorem Course.Numbered.tally_log {c : Course σ} (h : c.Numbered) (figure : Answered → Nat) :
    tally figure (c.log.map Entry.answered) = c.total (tally figure) := by
  have hlog : ∀ (n : Nat) (log : List (Entry σ)), (∀ e ∈ log, e.task < n) →
      tally figure (log.map Entry.answered) =
        ∑ i ∈ Finset.range n, tally figure ((log.filter (·.task = i)).map Entry.answered) := by
    intro n log hlog
    induction log with
    | nil => simp
    | cons e rest ih =>
      obtain ⟨he, hrest⟩ := List.forall_mem_cons.mp hlog
      have hown : ∀ i, tally figure (((e :: rest).filter (·.task = i)).map Entry.answered) =
          (if e.task = i then figure e.answered else 0) +
            tally figure ((rest.filter (·.task = i)).map Entry.answered) := by
        intro i
        by_cases hi : e.task = i <;> simp [hi]
      simp only [hown, Finset.sum_add_distrib, List.map_cons, tally_cons, ih hrest]
      rw [Finset.sum_ite_eq, if_pos (Finset.mem_range.mpr he)]
  rw [hlog _ _ h, Course.total]
  exact Finset.sum_congr rfl fun i _ => (tally_walk figure c.toChronicle i).symm

/-! ## What the counters have missed -/

/-- A poll that ended with a delivery refused. -/
def CutShort (steps : List Answered) : Prop := tally refused (beforeUpdate steps) ≠ 0

instance (steps : List Answered) : Decidable (CutShort steps) :=
  inferInstanceAs (Decidable (_ ≠ _))

/-- What a counter is to tell of an operation. The items that were fetched are those of its poll. -/
def Counter.tells : Counter → List Answered → Nat
  | .fetched, steps => tally handled (beforeUpdate steps)
  | k, steps => tally k.figure steps

/-- What it tells. -/
def Counter.told (k : Counter) (steps : List Answered) : Nat :=
  if CutShort steps then 0 else tally k.figure (beforeUpdate steps)

namespace OperationCounts

variable {steps : List Answered}

theorem tally_split (figure : Answered → Nat) (steps : List Answered) :
    tally figure steps = tally figure (beforeUpdate steps) + tally figure (fromUpdate steps) := by
  rw [← tally_append, beforeUpdate, fromUpdate, List.takeWhile_append_dropWhile]

theorem told (h : OperationCounts steps) {k : Counter} (hk : k ∈ Counter.ofItems) :
    tally (counts k) steps = k.told steps := by
  rw [tally_split, h.poll.counts k hk, h.update.counts k hk, Nat.add_zero, Counter.told]
  by_cases hcut : CutShort steps
  · rw [if_neg hcut, if_pos hcut]
  · rw [if_pos (Decidable.not_not.mp hcut), if_neg hcut]

theorem tells (h : OperationCounts steps) {k : Counter} (hk : k ∈ Counter.ofItems) :
    k.tells steps = tally k.figure (beforeUpdate steps) +
      if k = .dispatched then tally recorded (fromUpdate steps) else 0 := by
  revert k
  rw [Counter.forall_ofItems]
  refine ⟨rfl, tally_split recorded steps, ?_⟩
  exact (tally_split leftOut steps).trans (by rw [h.update.leftOut]; rfl)

theorem kept (h : OperationCounts steps) : tally accepted steps = tally recorded steps := by
  rw [tally_split accepted, tally_split recorded, h.poll.kept, h.update.kept]

/-- Whatever was refused was handled. -/
theorem handled_of_cutShort (h : CutShort steps) : tally handled (beforeUpdate steps) ≠ 0 := by
  have hle : ∀ steps, tally refused steps ≤ tally handled steps := by
    intro steps
    refine List.sum_le_sum fun step _ => ?_
    obtain ⟨action, reply⟩ := step
    cases action with
    | dispatch d => cases reply <;> simp [refused, handled]
    | _ => exact Nat.zero_le _
  have := hle (beforeUpdate steps)
  unfold CutShort at h
  omega

/-- A counter never tells too much. -/
theorem told_le (h : OperationCounts steps) {k : Counter} (hk : k ∈ Counter.ofItems) :
    k.told steps ≤ k.tells steps := by
  rw [h.tells hk, Counter.told]
  split <;> omega

/-- The counters tell all that they are to tell of an operation only if its poll was not cut short and
no item of its update was recorded. -/
theorem told_eq_tells_iff (h : OperationCounts steps) :
    (∀ k ∈ Counter.ofItems, k.told steps = k.tells steps) ↔
      ¬ CutShort steps ∧ tally recorded (fromUpdate steps) = 0 := by
  constructor
  · intro hall
    have hwhole : ¬ CutShort steps := by
      intro hcut
      have hfetched := hall .fetched (by decide)
      rw [Counter.told, if_pos hcut] at hfetched
      exact handled_of_cutShort hcut hfetched.symm
    have hdispatched := hall .dispatched (by decide)
    rw [h.tells (by decide), Counter.told, if_neg hwhole, if_pos rfl] at hdispatched
    exact ⟨hwhole, by omega⟩
  · rintro ⟨hwhole, hnone⟩ k hk
    rw [h.tells hk, Counter.told, if_neg hwhole, hnone]
    simp

end OperationCounts

/-- What the counters of items tell of all that was done from a world on. -/
structure ItemAccounts (w : World σ) (c : Course σ) : Prop where
  told : ∀ k ∈ Counter.ofItems, c.world.counters.count k = w.counters.count k + c.total k.told
  exact_iff : (∀ k ∈ Counter.ofItems,
      c.world.counters.count k = w.counters.count k + c.total k.tells) ↔
    ∀ i < c.tasks.length, ¬ CutShort (c.walk i) ∧ tally recorded (fromUpdate (c.walk i)) = 0
  kept : ∀ i < c.tasks.length, tally accepted (c.walk i) = tally recorded (c.walk i)
  part : ∀ i < c.tasks.length,
    tally handled (beforeUpdate (c.walk i)) ≤ tally returned (beforeUpdate (c.walk i))
  whole : ∀ i < c.tasks.length, ¬ CutShort (c.walk i) →
    tally handled (beforeUpdate (c.walk i)) = tally returned (beforeUpdate (c.walk i))

/-- When no operation is under way, the counters of items tell what became of the items of all polls but
those cut short, and nothing of updates. They are exact only if that is all there was. -/
theorem item_counts_of_later {R : Rules p b} {w : World σ} {c : Course σ}
    (hl : R.Later { world := w } c) (hidle : c.Idle) : ItemAccounts w c := by
  have hcounts : ∀ i < c.tasks.length, OperationCounts (c.walk i) := by
    intro i hi
    obtain ⟨outcome, houtcome⟩ := hidle _ (List.getElem_mem hi)
    have hwalk := hl.walk (List.getElem?_eq_getElem hi)
    rw [houtcome] at hwalk
    exact plan_counts hwalk
  have htold : ∀ k ∈ Counter.ofItems,
      c.world.counters.count k = w.counters.count k + c.total k.told := by
    intro k hk
    obtain ⟨-, hnumbered, -⟩ := conduct_of_later hl
    rw [hl.counters k, hnumbered.tally_log]
    congr 1
    exact Finset.sum_congr rfl fun i hi => (hcounts i (Finset.mem_range.mp hi)).told hk
  have hexact : (∀ k ∈ Counter.ofItems,
        c.world.counters.count k = w.counters.count k + c.total k.tells) ↔
      ∀ i < c.tasks.length, ¬ CutShort (c.walk i) ∧ tally recorded (fromUpdate (c.walk i)) = 0 := by
    constructor
    · intro hall i hi
      rw [← (hcounts i hi).told_eq_tells_iff]
      intro k hk
      have htotal : c.total k.told = c.total k.tells := by
        have := hall k hk
        have := htold k hk
        omega
      have hle : ∀ i ∈ Finset.range c.tasks.length, k.told (c.walk i) ≤ k.tells (c.walk i) :=
        fun i hi => (hcounts i (Finset.mem_range.mp hi)).told_le hk
      exact (Finset.sum_eq_sum_iff_of_le hle).mp htotal i (Finset.mem_range.mpr hi)
    · intro hall k hk
      rw [htold k hk]
      congr 1
      refine Finset.sum_congr rfl fun i hi => ?_
      have hi := Finset.mem_range.mp hi
      exact (hcounts i hi).told_eq_tells_iff.mpr (hall i hi) k hk
  refine { told := htold, exact_iff := hexact, kept := ?_, part := ?_, whole := ?_ }
  · exact fun i hi => (hcounts i hi).kept
  · exact fun i hi => (hcounts i hi).poll.part
  · exact fun i hi hwhole => (hcounts i hi).poll.whole (Decidable.not_not.mp hwhole)

/-! ## A poll cut short and an update -/

/-- Two items to read and one that an update gives. -/
def Script.twoAndOne : Script where
  reads := [⟨.ok [⟨"a", .null, []⟩, ⟨"b", .null, []⟩], none⟩]
  updates := [⟨.ok (some ⟨"u", .null, []⟩), none⟩]

def Script.forAnyone : Poller := { settings := {}, background := {} }

/-- The second item of a cycle is refused, and then a command makes an update. -/
def uncounted : Course Script :=
  let first := (List.replicate 7 0).foldl (Course.act Script.forAnyone Script.backend)
    (({ world := {
      backend := (Script.create Script.twoAndOne).2, history := .new 200 false,
      sink := { rule := .refuseId "b" } } } : Course Script).begin Script.forAnyone .cycle)
  (List.replicate 5 1).foldl (Course.act Script.forAnyone Script.backend)
    (first.begin Script.forAnyone (.command (.ofUpdate (.str "own"))))

theorem uncounted_reached :
    (inSequence Script.forAnyone Script.backend).Reached (.refuseId "b") .twoAndOne uncounted := by
  refine ⟨_, rfl, (Rules.Later.begin (Rules.Later.turns (Rules.Later.begin .refl ?_) _) ?_).turns _⟩
  · show Course.Idle _
    decide
  · show Course.Idle _
    decide

theorem uncounted_accounts :
    ∃ w, World.init Script.forAnyone Script.backend { rule := .refuseId "b" } .twoAndOne = .ok w ∧
      (inSequence Script.forAnyone Script.backend).Later { world := w } uncounted ∧
      uncounted.Idle ∧ ItemAccounts w uncounted := by
  obtain ⟨w, hw, hl⟩ := uncounted_reached
  have hidle : uncounted.Idle := by decide
  exact ⟨w, hw, hl, hidle, item_counts_of_later hl hidle⟩

/-- Two items were read and two were accepted and recorded; no counter tells of any. -/
theorem uncounted_inexact :
    (inSequence Script.forAnyone Script.backend).Reached (.refuseId "b") .twoAndOne uncounted ∧
      uncounted.Idle ∧
      Counter.ofItems.map (fun k => (k, uncounted.total k.tells, uncounted.world.counters.count k)) =
        [(.fetched, 2, 0), (.dispatched, 2, 0), (.skipped, 0, 0)] ∧
      ¬ ∀ k ∈ Counter.ofItems, uncounted.world.counters.count k = 0 + uncounted.total k.tells := by
  have htotals : Counter.ofItems.map (fun k =>
      (k, uncounted.total k.tells, uncounted.world.counters.count k)) =
        [(.fetched, 2, 0), (.dispatched, 2, 0), (.skipped, 0, 0)] := rfl
  refine ⟨uncounted_reached, by decide, htotals, fun hall => ?_⟩
  have hfetched : (0 : Nat) = 0 + 2 := hall .fetched (by decide)
  cases hfetched

end FeedPoller
