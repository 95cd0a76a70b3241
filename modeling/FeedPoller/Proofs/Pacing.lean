import FeedPoller.Backend.Script
import FeedPoller.Proofs.Ticks

/-! How a scheduler keeps its pace. At each tick it begins at most one read, with polling going on and
no other cycle of its own under way; a tick that finds polling suspended is lost, and whatever a cycle
comes to, the next tick follows. Main statement: so it is whichever way the turns go, and no read begins
before a suspension is over that was not cut short (`Clockwork.pace_kept`). -/

namespace FeedPoller

variable {σ ρ α : Type} {p : Poller} {b : Backend σ}

/-! ## The jobs of a scheduler -/

/-- The reads that a scheduler's job begins. -/
def Job.readsBegun (p : Poller) (b : Backend σ) (w : World σ) : Job ρ → List (World σ)
  | .tick .. => w.readsBegun p b (discard p.tick)
  | .cycle _ _ rest _ => w.readsBegun p b rest
  | _ => []

/-- A job that may run at `now`: a resume timer was set, and it is due when it goes off; what is left
of a tick reads no more. -/
def Job.Sound (es : List Control.Event) (now : Nat) : Job ρ → Prop
  | .arm t => Control.WasSet es t
  | .resume generation => ∃ t, Control.WasSet es t ∧ t.generation = generation ∧ t.deadline ≤ now
  | .cycle _ _ rest _ => ∃ plan : TickPlan, rest = discard plan ∧ plan.Only Action.NoRead
  | _ => True

theorem Job.Sound.later {es : List Control.Event} {now now' : Nat} {job : Job ρ}
    (h : job.Sound es now) (es' : List Control.Event) (hnow : now ≤ now') :
    job.Sound (es ++ es') now' := by
  cases job with
  | arm t => exact h.append es'
  | resume generation =>
    obtain ⟨t, ht, hg, hdue⟩ := h
    exact ⟨t, ht.append es', hg, Nat.le_trans hdue hnow⟩
  | cycle => exact h
  | tick | spawned => trivial

/-- What a job carries on at `now`, and the tick of its scheduler that comes after it. -/
inductive Job.Carries (p : Poller) (now : Nat) : Job ρ → Nat → Nat → TickPlan → List PathId → Prop
  | tick {n deadline : Nat} :
      Carries p now (.tick n deadline) n (Clockwork.nextDeadline p deadline now) p.tick []
  | cycle {n next : Nat} {plan : TickPlan} {opened : List PathId} :
      Carries p now (.cycle n next (discard plan) opened) n next plan opened

theorem Job.Sound.carries {es : List Control.Event} {now n : Nat} {job : Job ρ}
    (h : job.Sound es now) (hjob : Clockwork.Job.isOf n job = true) :
    ∃ next plan opened, job.Carries p now n next plan opened ∧ plan.ReadsOnce := by
  cases job with
  | tick n' deadline =>
    obtain rfl : n' = n := by simpa [Clockwork.Job.isOf] using hjob
    exact ⟨_, _, _, .tick, Poller.tick_readsOnce⟩
  | cycle n' next rest opened =>
    obtain rfl : n' = n := by simpa [Clockwork.Job.isOf] using hjob
    obtain ⟨plan, rfl, hplan⟩ := h
    exact ⟨_, _, _, .cycle, .never hplan⟩
  | arm | resume | spawned => cases hjob

namespace Clockwork

/-! ## The control of a clockwork -/

/-- All that happened to the control happened by the clock, and the jobs are sound: those in the queue
now, and those that wait when they are due. -/
structure Orderly (es : List Control.Event) (c : Clockwork σ ρ) : Prop where
  control : c.world.control = Control.after es
  timed : Control.Timed es
  past : ∀ e ∈ es, e.moment ≤ c.world.now
  queue : ∀ job ∈ c.queue, job.Sound es c.world.now
  pending : ∀ j ∈ c.pending, j.2.Sound es (j.1 * nanosPerMilli)

namespace Orderly

variable {es : List Control.Event} {c : Clockwork σ ρ}

theorem enqueue (h : Orderly es c) (job : Job ρ) (hjob : job.Sound es c.world.now) :
    Orderly es (c.enqueue job) := by
  refine { h with queue := ?_ }
  intro job' hjob'
  rcases List.mem_append.mp hjob' with hjob' | hjob'
  · exact h.queue job' hjob'
  · rw [List.mem_singleton.mp hjob']
    exact hjob

theorem waitUntil (h : Orderly es c) {moment : Nat} (job : Job ρ) (hjob : job.Sound es moment) :
    Orderly es (c.waitUntil moment job) := by
  refine { h with pending := ?_ }
  intro j hj
  rcases List.mem_append.mp hj with hj | hj
  · exact h.pending j hj
  · rw [List.mem_singleton.mp hj]
    have hceil : moment ≤ milliCeil moment * nanosPerMilli := by
      simp only [milliCeil, nanosPerMilli]
      omega
    have hlater := hjob.later [] hceil
    rwa [List.append_nil] at hlater

theorem noticeTimer (h : Orderly es c) : Orderly es c.noticeTimer := by
  unfold Clockwork.noticeTimer
  split
  · rename_i t ht
    split
    · have hset : Control.WasSet es t := Control.wasSet_timer (h.control ▸ ht)
      exact { h.enqueue (.arm t) hset with }
    · exact h
  · exact h

theorem awaitTick (h : Orderly es c) (scheduler deadline : Nat) :
    Orderly es (c.awaitTick scheduler deadline) := by
  unfold Clockwork.awaitTick
  split
  · refine { h with queue := ?_ }
    intro job hjob
    rcases List.mem_cons.mp hjob with rfl | hjob
    · trivial
    · exact h.queue job hjob
  · exact h.waitUntil (.tick scheduler deadline) trivial

/-- More happens to the control, all of it by the clock. -/
theorem world (h : Orderly es c) {es' : List Control.Event} {w : World σ} (hnow : w.now = c.world.now)
    (hcontrol : w.control = c.world.control.run es') (htimed : Control.Timed (es ++ es'))
    (hpast : ∀ e ∈ es', e.moment ≤ c.world.now) : Orderly (es ++ es') { c with world := w } where
  control := by
    rw [Control.after_append, ← h.control]
    exact hcontrol
  timed := htimed
  past e he := by
    rw [hnow]
    rcases List.mem_append.mp he with he | he
    · exact h.past e he
    · exact hpast e he
  queue job hjob := by
    rw [hnow]
    exact (h.queue job hjob).later es' (Nat.le_refl _)
  pending j hj := (h.pending j hj).later es' (Nat.le_refl _)

theorem advance (h : Orderly es c) (plan : Plan α) (opened : List PathId) :
    Orderly (es ++ c.world.events p b plan)
      { c with world := (c.world.advance p b plan opened).2.2 } := by
  refine h.world (World.now_advance ..) (World.control_advance ..) ?_ ?_
  · refine h.timed.append_now h.past ?_
    exact fun e he => World.of_mem_events he
  · exact fun e he => Nat.le_of_eq (World.of_mem_events he).1

theorem fire (h : Orderly es c) {generation : Nat}
    (hdue : (Job.resume generation : Job ρ).Sound es c.world.now) :
    Orderly (es ++ [.timer generation c.world.now]) (c.fire generation) := by
  refine h.world rfl rfl (h.timed.next ⟨h.past, ?_⟩) (by simp [Control.Event.moment])
  intro generation' now heq
  cases heq
  exact hdue

theorem runCycle (h : Orderly es c) (scheduler next : Nat) {plan : TickPlan}
    (hplan : plan.ReadsOnce) (opened : List PathId) :
    Orderly (es ++ c.world.events p b (discard plan))
      (c.runCycle p b scheduler next (discard plan) opened) := by
  have hadvance := h.advance (p := p) (b := b) (discard plan) opened
  unfold Clockwork.runCycle
  rw [World.advance_discard] at hadvance ⊢
  split at hadvance
  · exact (hadvance.awaitTick scheduler next).noticeTimer
  · rename_i ms rest opened' world heq
    have hrest : rest.Only Action.NoRead := hplan.waiting (congrArg (·.1) heq)
    exact (hadvance.waitUntil (.cycle scheduler next (discard rest) opened')
      ⟨rest, rfl, hrest⟩).noticeTimer

theorem runJob (h : Orderly es c) {job : Job ρ} (hjob : job.Sound es c.world.now) :
    Orderly (es ++ job.events p b c.world) (c.runJob p b job) := by
  cases job with
  | arm t =>
    simp only [Job.events, Clockwork.runJob]
    split
    · rename_i hdue
      exact h.fire ⟨t, hjob, rfl, hdue⟩
    · rw [List.append_nil]
      exact h.waitUntil (.resume t.generation) ⟨t, hjob, rfl, Nat.le_refl _⟩
  | resume generation => exact h.fire hjob
  | tick scheduler deadline => exact h.runCycle scheduler _ Poller.tick_readsOnce []
  | cycle scheduler next rest opened =>
    obtain ⟨plan, rfl, hplan⟩ := hjob
    exact h.runCycle scheduler next (.never hplan) opened
  | spawned n rest opened =>
    have hadvance := h.advance (p := p) (b := b) rest opened
    simp only [Job.events, Clockwork.runJob]
    split
    · rename_i r opened' world heq
      rw [heq] at hadvance
      have htold : Orderly (es ++ c.world.events p b rest)
          { c with world, results := c.results ++ [(n, r)] } := { hadvance with }
      exact htold.noticeTimer
    · rename_i ms rest' opened' world heq
      rw [heq] at hadvance
      exact (hadvance.waitUntil (.spawned n rest' opened') trivial).noticeTimer

theorem turn (h : Orderly es c) {es' : List Control.Event} {c' : Clockwork σ ρ}
    (ht : Turn p b c es' c') : Orderly (es ++ es') c' := by
  cases ht with
  | job before job after hqueue =>
    have hothers : Orderly es { c with queue := before ++ after } := by
      refine { h with queue := ?_ }
      intro job' hjob'
      refine h.queue job' ?_
      rw [hqueue]
      rcases List.mem_append.mp hjob' with hjob' | hjob'
      · exact List.mem_append_left _ hjob'
      · exact List.mem_append_right _ (List.mem_cons_of_mem _ hjob')
    exact hothers.runJob (h.queue job (by simp [hqueue]))
  | @time now ready rest hnow hperm hready =>
    rw [List.append_nil]
    have hpending : ∀ j ∈ ready ++ rest, j.2.Sound es (j.1 * nanosPerMilli) :=
      fun j hj => h.pending j (hperm.mem_iff.mpr hj)
    have hlater : ∀ {job : Job ρ} {moment}, job.Sound es moment → moment ≤ now → job.Sound es now := by
      intro job moment hjob hle
      have hsound := hjob.later [] hle
      rwa [List.append_nil] at hsound
    refine { control := h.control, timed := h.timed, past := ?_, queue := ?_, pending := ?_ }
    · exact fun e he => Nat.le_trans (h.past e he) hnow
    · intro job hjob
      rcases List.mem_append.mp hjob with hjob | hjob
      · exact hlater (h.queue job hjob) hnow
      · obtain ⟨j, hj, rfl⟩ := List.mem_map.mp hjob
        exact hlater (hpending j (List.mem_append_left _ hj)) (hready j hj)
    · exact fun j hj => hpending j (List.mem_append_right _ hj)
  | feed s =>
    rw [List.append_nil]
    exact { h with }
  | asked plan opened => exact (h.advance plan opened).noticeTimer
  | spawned plan =>
    rw [List.append_nil]
    exact { h.enqueue (.spawned c.spawned plan []) trivial with }
  | joined n =>
    rw [List.append_nil]
    exact { h with }
  | scheduled =>
    rw [List.append_nil]
    exact { h.enqueue (.tick (c.schedulers + 1) c.world.now) trivial with }

theorem start {sink : Sink} {s : σ} {w : World σ} (hw : World.init p b sink s = .ok w) :
    Orderly [] ({ world := w } : Clockwork σ ρ) := by
  obtain ⟨-, backend, rfl⟩ := World.init_eq_ok hw
  exact ⟨rfl, .start, by simp, by simp, by simp⟩

theorem of_run {c₀ : Clockwork σ ρ} (h₀ : Orderly [] c₀) (h : Run p b c₀ es c) : Orderly es c := by
  induction h with
  | start => exact h₀
  | turn _ ht ih => exact ih.turn ht

end Orderly

/-! ## One job for each scheduler -/

def jobs (c : Clockwork σ ρ) : List (Job ρ) := c.queue ++ c.pending.map (·.2)

/-- How many jobs a scheduler has. -/
def places (c : Clockwork σ ρ) (n : Nat) : Nat := c.jobs.countP (Job.isOf n)

section Places

variable {c : Clockwork σ ρ} {n : Nat}

theorem places_eq (c : Clockwork σ ρ) (n : Nat) : c.places n =
    c.queue.countP (Job.isOf n) + (c.pending.map (·.2)).countP (Job.isOf n) := List.countP_append

theorem countP_cons_toNat (f : α → Bool) (a : α) (l : List α) :
    (a :: l).countP f = l.countP f + (f a).toNat := by
  cases h : f a <;> simp [h]

theorem places_enqueue (job : Job ρ) :
    (c.enqueue job).places n = c.places n + (Job.isOf n job).toNat := by
  simp [places_eq, enqueue, countP_cons_toNat]
  omega

theorem places_waitUntil (moment : Nat) (job : Job ρ) :
    (c.waitUntil moment job).places n = c.places n + (Job.isOf n job).toNat := by
  simp [places_eq, waitUntil, countP_cons_toNat]
  omega

theorem places_noticeTimer : c.noticeTimer.places n = c.places n := by
  unfold noticeTimer
  split
  · split
    · exact places_enqueue _
    · rfl
  · rfl

theorem places_awaitTick (scheduler deadline : Nat) :
    (c.awaitTick scheduler deadline).places n = c.places n + (scheduler == n).toNat := by
  unfold awaitTick
  split
  · simp [places_eq, countP_cons_toNat, Job.isOf]
    omega
  · exact places_waitUntil ..

theorem places_runCycle (scheduler next : Nat) (plan : Plan Unit) (opened : List PathId) :
    (c.runCycle p b scheduler next plan opened).places n = c.places n + (scheduler == n).toNat := by
  unfold runCycle
  split
  · rw [places_noticeTimer, places_awaitTick]
    rfl
  · rw [places_noticeTimer, places_waitUntil]
    rfl

/-- A job that runs leaves its scheduler the job that it took. -/
theorem places_runJob (job : Job ρ) :
    (c.runJob p b job).places n = c.places n + (Job.isOf n job).toNat := by
  cases job with
  | arm t =>
    simp only [runJob]
    split
    · rfl
    · exact places_waitUntil ..
  | resume => rfl
  | tick => exact places_runCycle ..
  | cycle => exact places_runCycle ..
  | spawned =>
    simp only [runJob]
    split
    · exact places_noticeTimer
    · rw [places_noticeTimer, places_waitUntil]
      rfl

theorem places_eq_of_queue {before after : List (Job ρ)} {job : Job ρ}
    (h : c.queue = before ++ job :: after) :
    c.places n = ({ c with queue := before ++ after } : Clockwork σ ρ).places n +
      (Job.isOf n job).toNat := by
  simp [places_eq, h, countP_cons_toNat]
  omega

theorem places_of_perm {now : Nat} {ready rest : List (Nat × Job ρ)}
    (h : c.pending.Perm (ready ++ rest)) :
    ({ c with
      world := { c.world with now }, queue := c.queue ++ ready.map (·.2), pending := rest } :
        Clockwork σ ρ).places n = c.places n := by
  rw [places_eq, places_eq, (h.map (·.2)).countP_eq]
  simp
  omega

@[simp] theorem schedulers_noticeTimer : c.noticeTimer.schedulers = c.schedulers := by
  unfold noticeTimer
  split
  · split <;> rfl
  · rfl

@[simp] theorem schedulers_awaitTick (scheduler deadline : Nat) :
    (c.awaitTick scheduler deadline).schedulers = c.schedulers := by
  unfold awaitTick
  split <;> rfl

@[simp] theorem schedulers_waitUntil (moment : Nat) (job : Job ρ) :
    (c.waitUntil moment job).schedulers = c.schedulers := rfl

theorem schedulers_runCycle (scheduler next : Nat) (plan : Plan Unit) (opened : List PathId) :
    (c.runCycle p b scheduler next plan opened).schedulers = c.schedulers := by
  unfold runCycle
  split <;> simp

theorem schedulers_runJob (job : Job ρ) : (c.runJob p b job).schedulers = c.schedulers := by
  cases job with
  | arm t =>
    simp only [runJob]
    split <;> rfl
  | resume => rfl
  | tick => exact schedulers_runCycle ..
  | cycle => exact schedulers_runCycle ..
  | spawned =>
    simp only [runJob]
    split <;> simp

end Places

/-- The timer that is set has become a job. -/
def Noticed (c : Clockwork σ ρ) : Prop := ∀ t, c.world.control.timer = some t → t.generation ≤ c.armed

theorem noticed_noticeTimer (c : Clockwork σ ρ) : c.noticeTimer.Noticed := by
  intro t ht
  have hcontrol : c.noticeTimer.world.control = c.world.control := by
    unfold noticeTimer
    split
    · split <;> rfl
    · rfl
  rw [hcontrol] at ht
  unfold noticeTimer
  rw [ht]
  show t.generation ≤ armed (if c.armed < t.generation then _ else _)
  split
  · exact Nat.le_refl _
  · omega

theorem Noticed.noticeTimer_eq {c : Clockwork σ ρ} (h : c.Noticed) : c.noticeTimer = c := by
  unfold noticeTimer
  split
  · rename_i t ht
    have hle := h t ht
    exact if_neg (by omega)
  · rfl

theorem Noticed.fire {c : Clockwork σ ρ} (h : c.Noticed) (generation : Nat) :
    (c.fire generation).Noticed := by
  intro t ht
  rw [Clockwork.fire, Control.resumeFromTimer] at ht
  dsimp only at ht
  split at ht
  · exact h t ht
  · cases ht

theorem Noticed.awaitTick {c : Clockwork σ ρ} (h : c.Noticed) (scheduler deadline : Nat) :
    (c.awaitTick scheduler deadline).Noticed := by
  unfold Clockwork.awaitTick
  split <;> exact h

theorem Noticed.runCycle (c : Clockwork σ ρ) (scheduler next : Nat) (plan : Plan Unit)
    (opened : List PathId) : (c.runCycle p b scheduler next plan opened).Noticed := by
  unfold Clockwork.runCycle
  split <;> exact noticed_noticeTimer _

theorem Noticed.runJob {c : Clockwork σ ρ} (h : c.Noticed) (job : Job ρ) :
    (c.runJob p b job).Noticed := by
  cases job with
  | arm t =>
    simp only [Clockwork.runJob]
    split
    · exact h.fire _
    · exact h
  | resume => exact h.fire _
  | tick => exact Noticed.runCycle _ _ _ _ _
  | cycle => exact Noticed.runCycle _ _ _ _ _
  | spawned =>
    simp only [Clockwork.runJob]
    split <;> exact noticed_noticeTimer _

/-- Each scheduler has one job at any time. -/
structure Manned (c : Clockwork σ ρ) : Prop where
  places : ∀ n, c.places n = if 1 ≤ n ∧ n ≤ c.schedulers then 1 else 0
  noticed : c.Noticed

namespace Manned

variable {c c' : Clockwork σ ρ}

theorem turn (h : c.Manned) {es : List Control.Event} (ht : Turn p b c es c') : c'.Manned := by
  cases ht with
  | job before job after hqueue =>
    have hothers : ({ c with queue := before ++ after } : Clockwork σ ρ).Noticed := h.noticed
    refine ⟨fun n => ?_, hothers.runJob job⟩
    rw [places_runJob, ← places_eq_of_queue hqueue, schedulers_runJob]
    exact h.places n
  | time hnow hperm hready =>
    refine ⟨fun n => ?_, h.noticed⟩
    rw [places_of_perm hperm]
    exact h.places n
  | feed s => exact ⟨h.places, h.noticed⟩
  | asked plan opened =>
    refine ⟨fun n => ?_, noticed_noticeTimer _⟩
    rw [places_noticeTimer, schedulers_noticeTimer]
    exact h.places n
  | spawned plan =>
    refine ⟨fun n => ?_, h.noticed⟩
    exact (places_enqueue (.spawned c.spawned plan [])).trans (h.places n)
  | joined n => exact ⟨h.places, h.noticed⟩
  | scheduled =>
    refine ⟨fun n => ?_, h.noticed⟩
    refine (places_enqueue (.tick (c.schedulers + 1) c.world.now)).trans ?_
    rw [h.places n]
    by_cases hn : c.schedulers + 1 = n
    · simp [Job.isOf, ← hn]
    · have hlast : (c.schedulers + 1 == n) = false := by simpa using hn
      simp only [Job.isOf, hlast, Bool.toNat_false, Nat.add_zero]
      congr 1
      simp only [eq_iff_iff]
      omega

theorem start {sink : Sink} {s : σ} {w : World σ} (hw : World.init p b sink s = .ok w) :
    ({ world := w } : Clockwork σ ρ).Manned := by
  obtain ⟨-, backend, rfl⟩ := World.init_eq_ok hw
  refine ⟨fun n => ?_, fun t ht => by cases ht⟩
  rw [if_neg (by simp; omega)]
  rfl

theorem of_run {c₀ : Clockwork σ ρ} {es : List Control.Event} (h₀ : c₀.Manned)
    (h : Run p b c₀ es c) : c.Manned := by
  induction h with
  | start => exact h₀
  | turn _ ht ih => exact ih.turn ht

/-- The job of a scheduler is its only one. -/
theorem alone (h : c.Manned) {before after : List (Job ρ)} {job : Job ρ}
    (hqueue : c.queue = before ++ job :: after) {n : Nat} (hjob : Job.isOf n job = true) :
    ∀ job' ∈ ({ c with queue := before ++ after } : Clockwork σ ρ).jobs, Job.isOf n job' = false := by
  have hplaces := h.places n
  rw [places_eq_of_queue hqueue, hjob] at hplaces
  have hzero : ({ c with queue := before ++ after } : Clockwork σ ρ).places n = 0 := by
    split at hplaces <;> simp at hplaces
    exact hplaces
  intro job' hjob'
  exact eq_false_of_ne_true (List.countP_eq_zero.mp hzero job' hjob')

end Manned

/-! ## The pace of a scheduler -/

/-- The tick after one comes a whole period later, or more. -/
theorem nextDeadline_ge (p : Poller) (deadline now : Nat) :
    deadline + p.settings.scheduleDelay.nanos ≤ nextDeadline p deadline now := by
  simp only [nextDeadline]
  split <;> omega

/-- What comes of the job of scheduler `n` when it runs next, beside the `others`. -/
structure Paced (p : Poller) (b : Backend σ) (es : List Control.Event) (c others : Clockwork σ ρ)
    (n : Nat) (job : Job ρ) : Prop where
  /-- No other job is the scheduler's. -/
  alone : ∀ job' ∈ others.jobs, Job.isOf n job' = false
  /-- It begins a read only if it is a tick, only one, and only with polling going on. -/
  once : job.readsBegun p b c.world = [] ∨
    ∃ deadline w, job = .tick n deadline ∧ job.readsBegun p b c.world = [w] ∧
      w.now = c.world.now ∧ w.control = c.world.control ∧ c.world.control.state = .running
  /-- Whatever the cycle came to, the next tick follows once it is over. -/
  onward : ∃ next plan opened, job.Carries p c.world.now n next plan opened ∧
    (∀ outcome, (c.world.advance p b plan opened).1 = .finished outcome →
      .tick n next ∈ (others.runJob p b job).jobs) ∧
    ∀ ms rest, (c.world.advance p b plan opened).1 = .waiting ms rest →
      ∃ opened, .cycle n next (discard rest) opened ∈ (others.runJob p b job).jobs
  /-- A tick that finds polling suspended is lost: only the next one is awaited. -/
  skipped : ∀ deadline, job = .tick n deadline → c.world.control.state = .suspended →
    job.readsBegun p b c.world = [] ∧
      others.runJob p b job = others.awaitTick n (nextDeadline p deadline c.world.now) ∧
      deadline < nextDeadline p deadline c.world.now
  /-- It begins no read before the time is over that a suspension gave, unless that was cut short. -/
  held : job.readsBegun p b c.world ≠ [] → ∀ before t asked autoDelay since,
    es = before ++ .suspend t asked autoDelay :: since →
    c.world.now < t + ((Control.after before).suspend t asked autoDelay).1.nanos →
    Control.CutShort before t asked autoDelay since

section Jobs

variable {c : Clockwork σ ρ}

theorem mem_jobs_noticeTimer {job : Job ρ} (h : job ∈ c.jobs) : job ∈ c.noticeTimer.jobs := by
  unfold noticeTimer
  split
  · split
    · simp only [jobs, enqueue, List.mem_append] at h ⊢
      tauto
    · exact h
  · exact h

theorem mem_jobs_waitUntil (moment : Nat) (job : Job ρ) : job ∈ (c.waitUntil moment job).jobs := by
  simp [jobs, waitUntil]

theorem mem_jobs_awaitTick (n deadline : Nat) : .tick n deadline ∈ (c.awaitTick n deadline).jobs := by
  unfold awaitTick
  split
  · exact List.mem_cons_self
  · exact mem_jobs_waitUntil ..

theorem mem_jobs_runCycle (n next : Nat) (plan : TickPlan) (opened : List PathId) :
    (∀ outcome, (c.world.advance p b plan opened).1 = .finished outcome →
      .tick n next ∈ (c.runCycle p b n next (discard plan) opened).jobs) ∧
    ∀ ms rest, (c.world.advance p b plan opened).1 = .waiting ms rest →
      ∃ opened', .cycle n next (discard rest) opened' ∈
        (c.runCycle p b n next (discard plan) opened).jobs := by
  unfold runCycle
  rw [World.advance_discard]
  rcases c.world.advance p b plan opened with ⟨outcome | ⟨ms, rest⟩, opened', w⟩
  · refine ⟨fun _ _ => mem_jobs_noticeTimer (mem_jobs_awaitTick ..), ?_⟩
    intro ms rest h
    cases h
  · constructor
    · intro outcome h
      cases h
    · intro ms' rest' h
      cases h
      exact ⟨opened', mem_jobs_noticeTimer (mem_jobs_waitUntil ..)⟩

end Jobs

theorem runJob_of_carries {c : Clockwork σ ρ} {n next : Nat} {job : Job ρ} {plan : TickPlan}
    {opened : List PathId} (h : job.Carries p c.world.now n next plan opened) :
    c.runJob p b job = c.runCycle p b n next (discard plan) opened ∧
      job.readsBegun p b c.world = c.world.readsBegun p b plan := by
  cases h <;> exact ⟨rfl, congrArg (List.filterMap readAt) (World.deeds_discard ..)⟩

/-- Only ticks begin reads, each at most one, and with polling going on. -/
theorem readsBegun_of_sound {es : List Control.Event} {w : World σ} {n : Nat} {job : Job ρ}
    (h : job.Sound es w.now) (hjob : Job.isOf n job = true) :
    job.readsBegun p b w = [] ∨
      ∃ deadline w', job = .tick n deadline ∧ job.readsBegun p b w = [w'] ∧
        w'.now = w.now ∧ w'.control = w.control ∧ w.control.state = .running := by
  cases job with
  | tick n' deadline =>
    obtain rfl : n' = n := by simpa [Job.isOf] using hjob
    have hdiscard : (Job.tick n' deadline : Job ρ).readsBegun p b w = w.readsBegun p b p.tick :=
      congrArg (List.filterMap readAt) (World.deeds_discard ..)
    rw [hdiscard]
    rcases Poller.tick_readsOnce.readsBegun (p := p) (b := b) w with hnone | ⟨w', hone, hnow, hcontrol⟩
    · exact .inl hnone
    · refine .inr ⟨deadline, w', rfl, hone, hnow, hcontrol, ?_⟩
      have hreads : w.readsBegun p b p.tick ≠ [] := by simp [hone]
      exact Poller.running_of_readsBegun hreads
  | cycle n' next rest opened =>
    obtain ⟨plan, rfl, hplan⟩ := h
    refine .inl ?_
    exact (congrArg (List.filterMap readAt) (World.deeds_discard ..)).trans (hplan.readsBegun w)
  | arm | resume | spawned => cases hjob

/-- After any turns each scheduler has one job; it begins at most one read for each tick, with polling
going on; ticks in a suspension are lost, errors do not end the ticking, and no suspension is cut short
but by a call to resume or a shorter one. -/
theorem pace_kept {sink : Sink} {s : σ} {w : World σ} (hw : World.init p b sink s = .ok w)
    {es : List Control.Event} {c : Clockwork σ ρ} (hrun : Run p b { world := w } es c) :
    (∀ n, c.places n = if 1 ≤ n ∧ n ≤ c.schedulers then 1 else 0) ∧
    ∀ before job after n, c.queue = before ++ job :: after → Job.isOf n job = true →
      Paced p b es c { c with queue := before ++ after } n job := by
  obtain ⟨hvalid, -⟩ := World.init_eq_ok hw
  have hmanned : c.Manned := .of_run (.start hw) hrun
  have horderly : Orderly es c := .of_run (.start hw) hrun
  refine ⟨hmanned.places, ?_⟩
  intro before job after n hqueue hjob
  have hsound : job.Sound es c.world.now := horderly.queue job (by simp [hqueue])
  obtain ⟨next, plan, opened, hcarries, hplan⟩ := hsound.carries (p := p) hjob
  obtain ⟨hruns, hreads⟩ := runJob_of_carries (b := b)
    (c := { c with queue := before ++ after }) hcarries
  have honward := mem_jobs_runCycle (p := p) (b := b)
    (c := { c with queue := before ++ after }) n next plan opened
  rw [← hruns] at honward
  refine {
    alone := hmanned.alone hqueue hjob, once := ?_, onward := ⟨next, plan, opened, hcarries, honward⟩,
    skipped := ?_, held := ?_ }
  · exact readsBegun_of_sound hsound hjob
  · rintro deadline rfl hs
    cases hcarries
    obtain ⟨hskips, hnone⟩ := Poller.advance_tick_of_suspended (p := p) (b := b) hs []
    have hothers : ({ c with queue := before ++ after } : Clockwork σ ρ).Noticed := hmanned.noticed
    refine ⟨hreads.trans hnone, ?_, ?_⟩
    · rw [hruns, Clockwork.runCycle, World.advance_discard, hskips]
      exact (hothers.awaitTick n _).noticeTimer_eq
    · have hdelay := Settings.scheduleDelay_of_validate hvalid
      have hlater := nextDeadline_ge p deadline c.world.now
      simp only [Span.isZero, beq_eq_false_iff_ne] at hdelay
      omega
  · rintro hsome earlier t asked autoDelay since rfl hearly
    have hrunning : (Control.after (earlier ++ .suspend t asked autoDelay :: since)).state =
        .running := by
      rw [← horderly.control]
      obtain hnone | ⟨_, _, _, _, _, _, hrunning⟩ := readsBegun_of_sound hsound hjob
      · exact absurd hnone hsome
      · exact hrunning
    refine horderly.timed.early ?_ hrunning hearly
    exact fun e he => horderly.past e (by simp [he])

/-! ### A feed that is read each minute -/

def minutely : Poller where
  settings := {}
  background := { consumer := none, user := none }

/-- The first read is to be made again after a minute and a half. -/
def limitedOnce : World Script where
  backend := { created := 1, reads := [⟨.error (.rateLimited ⟨.ofSecs 90⟩), none⟩] }
  history := .new 200 false

/-- The scheduler has begun. -/
def scheduled : Clockwork Script Unit :=
  { world := limitedOnce, queue := [.tick 1 0], schedulers := 1 }

/-- The first tick has been carried out; its timer is yet to be set. -/
def ticked : Clockwork Script Unit :=
  { scheduled with queue := [] }.runJob minutely Script.backend (.tick 1 0)

def timerSet : Clockwork Script Unit :=
  { ticked with queue := [] }.runJob minutely Script.backend (.arm ⟨1, 90000000000⟩)

theorem run_timerSet :
    Run minutely Script.backend { world := limitedOnce } [.suspend 0 ⟨.ofSecs 90⟩ false] timerSet := by
  have hscheduled : Run minutely Script.backend { world := limitedOnce } [] scheduled :=
    Turn.scheduled.run
  have hticked : Run minutely Script.backend { world := limitedOnce }
      [.suspend 0 ⟨.ofSecs 90⟩ false] ticked := hscheduled.turn (.job [] (.tick 1 0) [] rfl)
  exact hticked.turn (.job [] (.arm ⟨1, 90000000000⟩) [] rfl)

/-- The second tick is due, and polling is suspended. -/
def atSecondTick : Clockwork Script Unit := timerSet.moveTo 60000

/-- Polling has been resumed in the meantime, after half a minute. -/
def resumedAtSecondTick : Clockwork Script Unit :=
  let c := timerSet.moveTo 30000
  { c with
    world := (c.world.advance minutely Script.backend (Plan.one .resume) []).2.2 }.noticeTimer.moveTo
      60000

/-- Of the two, only the second tick after the call to resume begins a read. -/
theorem secondTick_pace_kept :
    World.init minutely Script.backend {} { reads := limitedOnce.backend.reads } = .ok limitedOnce ∧
    (Run minutely Script.backend { world := limitedOnce } [.suspend 0 ⟨.ofSecs 90⟩ false]
        atSecondTick ∧
      atSecondTick.world.control.state = .suspended ∧
      Paced minutely Script.backend [.suspend 0 ⟨.ofSecs 90⟩ false] atSecondTick
        { atSecondTick with queue := [] } 1 (.tick 1 60000000000)) ∧
    Run minutely Script.backend { world := limitedOnce }
        [.suspend 0 ⟨.ofSecs 90⟩ false, .resume 30000000000] resumedAtSecondTick ∧
      (Job.tick 1 60000000000 : Job Unit).readsBegun minutely Script.backend
        resumedAtSecondTick.world ≠ [] ∧
      Paced minutely Script.backend [.suspend 0 ⟨.ofSecs 90⟩ false, .resume 30000000000]
        resumedAtSecondTick { resumedAtSecondTick with queue := [] } 1 (.tick 1 60000000000) := by
  have hinit : World.init minutely Script.backend {} { reads := limitedOnce.backend.reads } =
      .ok limitedOnce := rfl
  have hfirst : Run minutely Script.backend { world := limitedOnce } [.suspend 0 ⟨.ofSecs 90⟩ false]
      atSecondTick := run_timerSet.turn (.moveTo timerSet 60000)
  have hresumed : Run minutely Script.backend { world := limitedOnce }
      [.suspend 0 ⟨.ofSecs 90⟩ false, .resume 30000000000] resumedAtSecondTick :=
    ((run_timerSet.turn (.moveTo timerSet 30000)).turn
      (.asked (Plan.one .resume) [])).turn (.moveTo _ 60000)
  refine ⟨hinit, ⟨hfirst, rfl, (pace_kept hinit hfirst).2 [] _ [] 1 rfl rfl⟩, hresumed, ?_,
    (pace_kept hinit hresumed).2 [] _ [] 1 rfl rfl⟩
  exact List.cons_ne_nil _ _

end Clockwork
end FeedPoller
