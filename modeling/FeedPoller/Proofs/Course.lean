import FeedPoller.World
import Mathlib.Logic.Relation

/-! Operations side by side. A course is a world with the operations begun in it and the log of what
they did. In each step one operation begins, or one that has begun does its next action, or the world
moves on by itself; the order is left open. Operations one after another are the courses in which one
begins only when those before it are done. -/

namespace FeedPoller

variable {σ : Type}

/-! ## Operations -/

/-- What is asked of a poller; a tick is a cycle asked for by the scheduler. -/
inductive Operation where
  | cycle
  | tick
  | command (c : Command)

/-- What an operation comes to. -/
inductive Outcome where
  | skipped
  | cycle (result : Except Failure CycleReport)
  | command (result : Except Failure CommandReport)

/-- Whether a report came back. -/
def Outcome.IsOk : Outcome → Prop
  | .skipped => False
  | .cycle result => ∃ report, result = .ok report
  | .command result => ∃ report, result = .ok report

namespace Operation

def plan (p : Poller) : Operation → Plan Outcome
  | .cycle => do return .cycle (← p.runCycle)
  | .tick => do
    match ← p.tick with
    | none => return .skipped
    | some result => return .cycle result
  | .command c => do return .command (← p.handle c)

/-- The credentials that it goes by. -/
def credentials (p : Poller) : Operation → CredentialSet
  | .cycle | .tick => p.background
  | .command c => p.credentialsOf c

def identity (p : Poller) (op : Operation) : Identity := (op.credentials p).identity

/-- A poll for an identity that overrides neither cursor nor parameters and makes no update. -/
def PollsFor (p : Poller) (who : Identity) (op : Operation) : Prop :=
  op.identity p = who ∧ ∀ c, op = .command c →
    c.cursor = none ∧ c.params = none ∧ c.wantsUpdate = false

theorem PollsFor.background {p : Poller} {who : Identity} {op : Operation} (h : op.PollsFor p who)
    (hop : op = .cycle ∨ op = .tick) : p.background.identity = who := by
  obtain rfl | rfl := hop <;> exact h.1

theorem PollsFor.command {p : Poller} {who : Identity} {op : Operation} (h : op.PollsFor p who)
    {c : Command} (hop : op = .command c) :
    (p.credentialsOf c).identity = who ∧ c.cursor = none ∧ c.params = none ∧
      c.wantsUpdate = false := by
  subst hop
  exact ⟨h.1, h.2 c rfl⟩

end Operation

/-! ## Courses -/

/-- An action of an operation, known by its number, with the world it was done in and what it gave
back. -/
structure Entry (σ : Type) where
  task : Nat
  op : Operation
  world : World σ
  action : Action
  reply : action.Reply

/-- What an action records, if it is a record. -/
def Entry.recorded (e : Entry σ) : Option (Identity × String) :=
  match e.action with
  | .record who id => some (who, id)
  | _ => none

theorem Entry.recorded_eq_some {e : Entry σ} {who : Identity} {id : String} :
    e.recorded = some (who, id) ↔ e.action = .record who id := by
  unfold recorded
  split
  · rename_i he
    simp [he]
  · rename_i hne
    exact ⟨by simp, fun he => absurd he (hne who id)⟩

theorem Entry.recorded_of_ne {e : Entry σ} (h : ∀ who id, e.action ≠ .record who id) :
    e.recorded = none := by
  rw [Option.eq_none_iff_forall_ne_some]
  intro r hr
  exact h r.1 r.2 (recorded_eq_some.mp hr)

/-- Each entry of a log, the newest of which comes first, is as it should be given those before it. -/
def EachGiven (P : List (Entry σ) → Entry σ → Prop) : List (Entry σ) → Prop
  | [] => True
  | e :: past => P past e ∧ EachGiven P past

theorem EachGiven.and {P Q : List (Entry σ) → Entry σ → Prop} {log : List (Entry σ)}
    (h : EachGiven P log) (h' : EachGiven Q log) :
    EachGiven (fun past e => P past e ∧ Q past e) log := by
  induction log with
  | nil => trivial
  | cons e past ih => exact ⟨⟨h.1, h'.1⟩, ih h.2 h'.2⟩

theorem EachGiven.of_mem {P : List (Entry σ) → Entry σ → Prop} {log : List (Entry σ)}
    (h : EachGiven P log) {e : Entry σ} (he : e ∈ log) : ∃ past, past <:+ log ∧ P past e := by
  induction log with
  | nil => cases he
  | cons e' past ih =>
    rcases List.mem_cons.mp he with rfl | he
    · exact ⟨past, List.suffix_cons .., h.1⟩
    · obtain ⟨past', hsuffix, hP⟩ := ih h.2 he
      exact ⟨past', hsuffix.trans (List.suffix_cons ..), hP⟩

theorem EachGiven.of_append {P : List (Entry σ) → Entry σ → Prop} {later past : List (Entry σ)}
    {e : Entry σ} (h : EachGiven P (later ++ e :: past)) : P past e := by
  induction later with
  | nil => exact h.1
  | cons e' later ih => exact ih h.2

/-- A world and what was done in it, the newest first. -/
structure Chronicle (σ : Type) where
  world : World σ
  log : List (Entry σ) := []

/-- All that was recorded, the first one first. -/
def Chronicle.records (c : Chronicle σ) : List (Identity × String) :=
  (c.log.filterMap Entry.recorded).reverse

theorem Chronicle.records_cons (c : Chronicle σ) (e : Entry σ) (w : World σ) :
    (⟨w, e :: c.log⟩ : Chronicle σ).records = c.records ++ e.recorded.toList := by
  cases h : e.recorded <;> simp [records, h]

/-- Does an action and enters it in the log. -/
def Chronicle.perform (p : Poller) (b : Backend σ) (c : Chronicle σ) (task : Nat) (op : Operation)
    (action : Action) : action.Reply × Chronicle σ :=
  let (answer, world) := c.world.perform p b action
  (answer.value, ⟨world, ⟨task, op, c.world, action, answer.value⟩ :: c.log⟩)

/-- An operation that has begun, and what is left of its plan. -/
structure Task where
  op : Operation
  plan : Plan Outcome

def Task.Done (t : Task) : Prop := ∃ outcome, t.plan = .done outcome

instance (t : Task) : Decidable t.Done :=
  match t with
  | ⟨_, .done outcome⟩ => .isTrue ⟨outcome, rfl⟩
  | ⟨_, .act _ _⟩ => .isFalse fun ⟨_, h⟩ => by cases h

/-- The operations are numbered as they began. -/
structure Course (σ : Type) extends Chronicle σ where
  tasks : List Task := []

namespace Course

def Idle (c : Course σ) : Prop := ∀ t ∈ c.tasks, t.Done

instance (c : Course σ) : Decidable c.Idle := inferInstanceAs (Decidable (∀ t ∈ c.tasks, t.Done))

/-- What is in the log was done by operations that have begun. -/
def Numbered (c : Course σ) : Prop := ∀ e ∈ c.log, e.task < c.tasks.length

/-- Each entry of the log names the operation that did it. -/
def Signed (c : Course σ) : Prop := ∀ e ∈ c.log, ∃ t, c.tasks[e.task]? = some t ∧ t.op = e.op

def begin (p : Poller) (c : Course σ) (op : Operation) : Course σ :=
  { c with tasks := c.tasks ++ [⟨op, op.plan p⟩] }

/-- An operation under way is one of the earlier ones or has just begun. -/
theorem task_begin {p : Poller} {c : Course σ} {op : Operation} {i : Nat} {t : Task}
    (h : (c.begin p op).tasks[i]? = some t) :
    c.tasks[i]? = some t ∨ i = c.tasks.length ∧ t = ⟨op, op.plan p⟩ := by
  simp only [begin, List.getElem?_append] at h
  split at h
  · exact .inl h
  · rcases hn : i - c.tasks.length with _ | n
    · rw [hn] at h
      exact .inr ⟨by omega, by simpa using h.symm⟩
    · simp [hn] at h

/-- After one operation has gone on, it stands elsewhere in its plan, and the others where they were. -/
theorem task_set {tasks : List Task} {i j : Nat} {t t' : Task}
    (h : (tasks.set i t')[j]? = some t) : j = i ∧ t = t' ∨ j ≠ i ∧ tasks[j]? = some t := by
  by_cases hij : i = j
  · subst hij
    obtain ⟨hlt, hget⟩ := List.getElem?_eq_some_iff.mp h
    rw [List.getElem_set_self] at hget
    exact .inl ⟨rfl, hget.symm⟩
  · rw [List.getElem?_set_ne hij] at h
    exact .inr ⟨Ne.symm hij, h⟩

/-- An operation does its next action, unless it is done. -/
def act (p : Poller) (b : Backend σ) (c : Course σ) (i : Nat) : Course σ :=
  match c.tasks[i]? with
  | some ⟨op, .act action next⟩ => {
      toChronicle := (c.perform p b i op action).2
      tasks := c.tasks.set i ⟨op, next (c.perform p b i op action).1⟩ }
  | _ => c

end Course

/-- How a world moves on by itself: time passes, a call from outside resumes the poller, the timer of
whichever generation goes off, or the backend changes as `moves` allows. -/
inductive Meanwhile (moves : σ → σ → Prop) (w : World σ) : World σ → Prop
  | time {now : Nat} : w.now ≤ now → Meanwhile moves w { w with now }
  | resume : Meanwhile moves w { w with control := (w.control.resume w.now).2 }
  | timer (generation : Nat) :
      Meanwhile moves w { w with control := (w.control.resumeFromTimer generation w.now).2 }
  | backend {s : σ} : moves w.backend s → Meanwhile moves w { w with backend := s }

/-- The world by itself neither delivers nor remembers anything. -/
theorem Meanwhile.apart {moves : σ → σ → Prop} {w w' : World σ} (h : Meanwhile moves w w') :
    w'.history = w.history ∧ w'.sink = w.sink ∧
      (w'.backend = w.backend ∨ moves w.backend w'.backend) := by
  cases h with
  | time | resume | timer => exact ⟨rfl, rfl, .inl rfl⟩
  | backend hs => exact ⟨rfl, rfl, .inr hs⟩

theorem Meanwhile.mono {moves moves' : σ → σ → Prop} {w w' : World σ} (h : Meanwhile moves w w')
    (hmoves : ∀ s s', moves s s' → moves' s s') : Meanwhile moves' w w' := by
  cases h with
  | time hnow => exact .time hnow
  | resume => exact .resume
  | timer generation => exact .timer generation
  | backend hs => exact .backend (hmoves _ _ hs)

/-- What can happen: how the backend may change by itself and which operations may begin. -/
structure Rules (p : Poller) (b : Backend σ) where
  moves : σ → σ → Prop
  begins : Course σ → Operation → Prop

namespace Rules

variable {p : Poller} {b : Backend σ}

inductive Step (R : Rules p b) (c : Course σ) : Course σ → Prop
  | begin {op : Operation} : R.begins c op → Step R c (c.begin p op)
  | act {i : Nat} {op : Operation} {action : Action} {next : action.Reply → Plan Outcome} :
      c.tasks[i]? = some ⟨op, .act action next⟩ →
      Step R c {
        toChronicle := (c.perform p b i op action).2
        tasks := c.tasks.set i ⟨op, next (c.perform p b i op action).1⟩ }
  | meanwhile {w : World σ} : Meanwhile R.moves c.world w → Step R c { c with world := w }

/-- A later course, any number of steps on. -/
def Later (R : Rules p b) : Course σ → Course σ → Prop := Relation.ReflTransGen R.Step

/-- From the start on, the entries of the log tell rightly which operation did them. -/
theorem Later.signed {R : Rules p b} {w : World σ} {c : Course σ} (h : R.Later { world := w } c) :
    c.Signed := by
  induction h with
  | refl => simp [Course.Signed]
  | tail _ hs ih =>
    cases hs with
    | begin =>
      intro e he
      obtain ⟨t, ht, hop⟩ := ih e he
      have hlt := (List.getElem?_eq_some_iff.mp ht).1
      exact ⟨t, (List.getElem?_append_left hlt).trans ht, hop⟩
    | @act i op action next hi =>
      have hlt := (List.getElem?_eq_some_iff.mp hi).1
      intro e he
      obtain rfl | he := List.mem_cons.mp he
      · exact ⟨_, List.getElem?_set_self hlt, rfl⟩
      · obtain ⟨t, ht, hop⟩ := ih e he
        by_cases hei : e.task = i
        · subst hei
          obtain rfl := Option.some.inj (hi.symm.trans ht)
          exact ⟨_, List.getElem?_set_self hlt, hop⟩
        · exact ⟨t, by rw [List.getElem?_set_ne (Ne.symm hei), ht], hop⟩
    | meanwhile => exact ih

theorem Later.refl {R : Rules p b} {c : Course σ} : R.Later c c := Relation.ReflTransGen.refl

/-- A course that comes about under rules comes about under any that forbid less. -/
theorem Later.mono {R R' : Rules p b} {c c' : Course σ} (h : R.Later c c')
    (hmoves : ∀ s s', R.moves s s' → R'.moves s s')
    (hbegins : ∀ c op, R.begins c op → R'.begins c op) : R'.Later c c' := by
  induction h with
  | refl => exact .refl
  | tail _ hs ih =>
    cases hs with
    | begin hop => exact ih.tail (.begin (hbegins _ _ hop))
    | act hi => exact ih.tail (.act hi)
    | meanwhile hw => exact ih.tail (.meanwhile (hw.mono hmoves))

theorem Later.begin {R : Rules p b} {c c' : Course σ} {op : Operation} (h : R.Later c c')
    (hop : R.begins c' op) : R.Later c (c'.begin p op) := h.tail (.begin hop)

theorem Later.act {R : Rules p b} {c c' : Course σ} (h : R.Later c c') (i : Nat) :
    R.Later c (c'.act p b i) := by
  unfold Course.act
  split
  · rename_i hi
    exact h.tail (.act hi)
  · exact h

/-- Operations take their next actions in an order that is given by their numbers. -/
theorem Later.turns {R : Rules p b} {c c' : Course σ} (h : R.Later c c') (turns : List Nat) :
    R.Later c (turns.foldl (Course.act p b) c') := by
  induction turns generalizing c' with
  | nil => exact h
  | cons i rest ih => exact ih (h.act i)

/-- A course that a poller comes to from its start, with a sink that has accepted nothing yet. -/
def Reached (R : Rules p b) (rule : Sink.Rule) (s : σ) (c : Course σ) : Prop :=
  ∃ w, World.init p b { rule } s = .ok w ∧ R.Later { world := w } c

end Rules
end FeedPoller
