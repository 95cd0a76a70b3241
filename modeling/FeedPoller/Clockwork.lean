import FeedPoller.World

/-! Plans side by side on one clock. One job runs at a time, up to its next wait. Jobs that can go on
stand in a queue; when it is empty the clock moves on to the next moment at which a job is due. The
clock goes by whole milliseconds, so a job that is due between two of them goes on at the later. -/

namespace FeedPoller

/-! ## One job up to its next wait -/

/-- A plan stopped where it stood: at its end, or where an answer takes so many milliseconds. -/
inductive Progress (α : Type) where
  | finished (a : α)
  | waiting (ms : Nat) (rest : Plan α)

/-- The paths on which a plan has a session open, after one more action. -/
def openAfter : (action : Action) → action.Reply → List PathId → List PathId
  | .openSession path _ _, .ok _, opened => path :: opened
  | .closeSession path, _, opened => opened.erase path
  | _, _, opened => opened

/-- Carries a plan on up to its next wait. -/
def World.advance {σ α : Type} (p : Poller) (b : Backend σ) :
    Plan α → List PathId → World σ → Progress α × List PathId × World σ
  | .done a, opened, w => (.finished a, opened, w)
  | .act action next, opened, w =>
    let (answer, w) := w.perform p b action
    let opened := openAfter action answer.value opened
    match answer.wait with
    | some (ms + 1) => (.waiting (ms + 1) (next answer.value), opened, w)
    | _ => advance p b (next answer.value) opened w

/-! ## The clock -/

def nanosPerMilli : Nat := 1000000

/-- A tick that comes later than this moves the ticks after it. -/
def lateness : Nat := 5 * nanosPerMilli

/-- What goes on beside the step at hand. A scheduler is known by its number; the deadline of its tick
is in nanoseconds. -/
inductive Job (ρ : Type) where
  | arm (timer : ResumeTimer)
  | resume (generation : Nat)
  | tick (scheduler deadline : Nat)
  | cycle (scheduler nextDeadline : Nat) (rest : Plan Unit) (opened : List PathId)
  | spawned (n : Nat) (rest : Plan ρ) (opened : List PathId)

/-- `pending` has the jobs that wait, each with the millisecond at which it is due, in the order in
which they began to wait. `armed` is the generation of the last resume timer that became a job. -/
structure Clockwork (σ ρ : Type) where
  world : World σ
  queue : List (Job ρ) := []
  pending : List (Nat × Job ρ) := []
  armed : Nat := 0
  schedulers : Nat := 0
  spawned : Nat := 0
  joined : Nat := 0
  results : List (Nat × ρ) := []

namespace Clockwork

variable {σ ρ α : Type}

def millis (c : Clockwork σ ρ) : Nat := c.world.now / nanosPerMilli

/-- The first whole millisecond that is not before a moment. -/
def milliCeil (nanos : Nat) : Nat := (nanos + (nanosPerMilli - 1)) / nanosPerMilli

/-- Lets a job wait until a moment in nanoseconds. -/
def waitUntil (c : Clockwork σ ρ) (moment : Nat) (job : Job ρ) : Clockwork σ ρ :=
  { c with pending := c.pending ++ [(milliCeil moment, job)] }

def enqueue (c : Clockwork σ ρ) (job : Job ρ) : Clockwork σ ρ := { c with queue := c.queue ++ [job] }

/-- A resume timer that was set since becomes a job. -/
def noticeTimer (c : Clockwork σ ρ) : Clockwork σ ρ :=
  match c.world.control.timer with
  | some t =>
    if c.armed < t.generation then { c.enqueue (.arm t) with armed := t.generation } else c
  | none => c

/-- The earliest millisecond at which a job is due. -/
def earliest (c : Clockwork σ ρ) : Option Nat := (c.pending.map (·.1)).min?

/-- Moves the clock on to a millisecond; the jobs due by then can go on. -/
def moveTo (c : Clockwork σ ρ) (ms : Nat) : Clockwork σ ρ :=
  let now := max c.world.now (ms * nanosPerMilli)
  let due := c.pending.filter (·.1 * nanosPerMilli ≤ now)
  { c with
    world := { c.world with now }
    queue := c.queue ++ due.map (·.2)
    pending := c.pending.filter (now < ·.1 * nanosPerMilli) }

/-- The scheduler waits for its next tick, and goes on at once if that is due. -/
def awaitTick (c : Clockwork σ ρ) (scheduler deadline : Nat) : Clockwork σ ρ :=
  if deadline ≤ c.world.now then { c with queue := .tick scheduler deadline :: c.queue }
  else c.waitUntil deadline (.tick scheduler deadline)

/-- The scheduler's next deadline, when a tick is taken now: one period after this one, or after now
if this one came late. -/
def nextDeadline (p : Poller) (deadline now : Nat) : Nat :=
  let period := p.settings.scheduleDelay.nanos
  if deadline + lateness < now then now + period else deadline + period

/-- Carries on the cycle of a scheduler. -/
def runCycle (p : Poller) (b : Backend σ) (c : Clockwork σ ρ) (scheduler next : Nat)
    (plan : Plan Unit) (opened : List PathId) : Clockwork σ ρ :=
  match c.world.advance p b plan opened with
  | (.finished _, _, world) => ({ c with world }.awaitTick scheduler next).noticeTimer
  | (.waiting ms rest, opened, world) =>
    ({ c with world }.waitUntil (world.now + ms * nanosPerMilli)
      (.cycle scheduler next rest opened)).noticeTimer

/-- A resume timer goes off. -/
def fire (c : Clockwork σ ρ) (generation : Nat) : Clockwork σ ρ :=
  { c with world.control := (c.world.control.resumeFromTimer generation c.world.now).2 }

/-- Runs one job up to its next wait. -/
def runJob (p : Poller) (b : Backend σ) (c : Clockwork σ ρ) : Job ρ → Clockwork σ ρ
  | .arm t =>
    if t.deadline ≤ c.world.now then c.fire t.generation
    else c.waitUntil t.deadline (.resume t.generation)
  | .resume generation => c.fire generation
  | .tick scheduler deadline =>
    c.runCycle p b scheduler (nextDeadline p deadline c.world.now)
      (discard p.tick) []
  | .cycle scheduler next rest opened => c.runCycle p b scheduler next rest opened
  | .spawned n rest opened =>
    match c.world.advance p b rest opened with
    | (.finished r, _, world) => { c with world, results := c.results ++ [(n, r)] }.noticeTimer
    | (.waiting ms rest, opened, world) =>
      ({ c with world }.waitUntil (world.now + ms * nanosPerMilli)
        (.spawned n rest opened)).noticeTimer

/-! ## Runs

Each turn runs a job or moves the clock; `fuel` bounds the turns. -/

/-- Enough turns for any run. -/
def patience : Nat := 0x10000000000

/-- Runs whatever is due up to a millisecond and leaves the clock there. -/
def runUntil (p : Poller) (b : Backend σ) (last : Nat) : Nat → Clockwork σ ρ → Clockwork σ ρ
  | 0, c => c
  | fuel + 1, c =>
    match c.queue with
    | job :: queue => runUntil p b last fuel ({ c with queue }.runJob p b job)
    | [] =>
      match c.earliest with
      | some ms => if ms ≤ last then runUntil p b last fuel (c.moveTo ms) else c.moveTo last
      | none => c.moveTo last

/-- Runs what can go on now. -/
def settle (p : Poller) (b : Backend σ) (c : Clockwork σ ρ) : Clockwork σ ρ :=
  c.runUntil p b c.millis patience

/-- Lets a number of milliseconds pass. -/
def sleep (p : Poller) (b : Backend σ) (c : Clockwork σ ρ) (ms : Nat) : Clockwork σ ρ :=
  c.runUntil p b (c.millis + ms) patience

/-- Carries out a plan as the step at hand. Other jobs run only while it waits, and when it can go on
it goes first. -/
def runStep (p : Poller) (b : Backend σ) :
    Nat → Option Nat → Plan α → List PathId → Clockwork σ ρ → Option α × Clockwork σ ρ
  | 0, _, _, _, c => (none, c)
  | fuel + 1, some due, plan, opened, c =>
    if due ≤ c.millis then runStep p b fuel none plan opened c
    else
      match c.queue with
      | job :: queue =>
        runStep p b fuel (some due) plan opened ({ c with queue }.runJob p b job)
      | [] => runStep p b fuel (some due) plan opened (c.moveTo (min due (c.earliest.getD due)))
  | fuel + 1, none, plan, opened, c =>
    match c.world.advance p b plan opened with
    | (.finished a, _, world) => (some a, { c with world }.noticeTimer)
    | (.waiting ms rest, opened, world) =>
      let c := { c with world }.noticeTimer
      runStep p b fuel (some (c.millis + ms)) rest opened c

/-- Carries out a plan; other jobs run only while it waits. -/
def step (p : Poller) (b : Backend σ) (plan : Plan α) (c : Clockwork σ ρ) :
    Option α × Clockwork σ ρ :=
  c.runStep p b patience none plan []

/-! ## Jobs of one's own -/

/-- Starts a plan beside the steps; it runs up to its first wait. -/
def spawn (p : Poller) (b : Backend σ) (plan : Plan ρ) (c : Clockwork σ ρ) : Clockwork σ ρ :=
  { c.enqueue (.spawned c.spawned plan []) with spawned := c.spawned + 1 }.settle p b

/-- Runs until all that was spawned has finished. -/
def runSpawned (p : Poller) (b : Backend σ) : Nat → Clockwork σ ρ → Clockwork σ ρ
  | 0, c => c
  | fuel + 1, c =>
    match c.queue with
    | job :: queue => runSpawned p b fuel ({ c with queue }.runJob p b job)
    | [] =>
      if c.spawned ≤ c.results.length then c
      else
        match c.earliest with
        | some ms => runSpawned p b fuel (c.moveTo ms)
        | none => c

/-- Waits for all that was spawned since the last time, and gives the results in the order in which
it was spawned. -/
def join (p : Poller) (b : Backend σ) (c : Clockwork σ ρ) : List ρ × Clockwork σ ρ :=
  let c := c.runSpawned p b patience
  let fresh := (List.range' c.joined (c.spawned - c.joined)).filterMap fun n => c.results.lookup n
  (fresh, { c with joined := c.spawned })

/-- Starts a scheduler, whose first tick is at once. -/
def schedule (p : Poller) (b : Backend σ) (c : Clockwork σ ρ) : Clockwork σ ρ :=
  { c.enqueue (.tick (c.schedulers + 1) c.world.now) with
    schedulers := c.schedulers + 1 }.settle p b

/-- Whether a job belongs to a scheduler. -/
def Job.isOf (scheduler : Nat) : Job ρ → Bool
  | .tick s _ => s == scheduler
  | .cycle s _ _ _ => s == scheduler
  | _ => false

/-- The sessions that a job has open. -/
def Job.opened : Job ρ → List PathId
  | .cycle _ _ _ opened => opened
  | .spawned _ _ opened => opened
  | _ => []

/-- Stops the scheduler started last; a session that its cycle has open is closed. -/
def unschedule (p : Poller) (b : Backend σ) (c : Clockwork σ ρ) : Clockwork σ ρ :=
  let jobs := c.queue ++ c.pending.map (·.2)
  let opened := (jobs.filter (Job.isOf c.schedulers)).flatMap Job.opened
  let backend := opened.foldl (fun s path => b.closeSession path s) c.world.backend
  { c with
    world.backend := backend
    queue := c.queue.filter (! Job.isOf c.schedulers ·)
    pending := c.pending.filter (! Job.isOf c.schedulers ·.2) }.settle p b

end Clockwork
end FeedPoller
