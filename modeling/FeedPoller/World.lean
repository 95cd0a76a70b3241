import FeedPoller.History
import FeedPoller.Poller
import FeedPoller.Sink

/-! What the actions of a plan act on, and what each of them does. -/

namespace FeedPoller

/-- An answer of a backend and the milliseconds it takes to come, if it is not there at once. -/
structure Delayed (α : Type) where
  value : α
  wait : Option Nat := none
  deriving Repr

/-- What a poller asks of the paths to its feed. `create` makes a path, or hands out one made before;
`closeSession` does nothing on a path whose session is not active. -/
structure Backend (σ : Type) where
  create : σ → Except Failure PathId × σ
  authRequired : PathId → σ → Bool
  openSession : PathId → Credentials → Credentials → σ → Except SessionFailure Unit × σ
  closeSession : PathId → σ → σ
  read : PathId → Option String → Json.Fields → σ →
    Delayed (Except ReadFailure (List Item)) × σ
  update : PathId → Json.Value → Json.Fields → σ →
    Delayed (Except FetchFailure (Option Item)) × σ

/-- `now` is in nanoseconds. -/
structure World (σ : Type) where
  backend : σ
  history : History
  control : Control := {}
  counters : Counters := []
  sink : Sink := {}
  now : Nat := 0

namespace World

variable {σ : Type}

/-- The state before any operation; the settings are accepted and the background path is made
first. -/
def init (p : Poller) (b : Backend σ) (sink : Sink) (s : σ) : Except Failure (World σ) :=
  match p.settings.validate with
  | .error e => .error (.config e)
  | .ok () =>
    match b.create s with
    | (.error e, _) => .error e
    | (.ok _, s) => .ok {
        backend := s
        history := .new p.settings.maxHistory p.settings.skipDuplicates
        sink }

/-- A world is only ever begun with settings that are accepted, and nothing is remembered in it. -/
theorem init_eq_ok {p : Poller} {b : Backend σ} {sink : Sink} {s : σ} {w : World σ}
    (h : init p b sink s = .ok w) :
    p.settings.validate = .ok () ∧ ∃ backend, w = {
      backend, history := .new p.settings.maxHistory p.settings.skipDuplicates, sink } := by
  unfold init at h
  split at h
  · cases h
  rename_i hvalid
  split at h
  · cases h
  · cases h
    exact ⟨hvalid, _, rfl⟩

/-- The backend of a world that has just begun has made the background path. -/
theorem backend_of_init {p : Poller} {b : Backend σ} {sink : Sink} {s : σ} {w : World σ}
    (h : init p b sink s = .ok w) : w.backend = (b.create s).2 := by
  unfold init at h
  split at h
  · cases h
  split at h
  · cases h
  · rename_i hcreate
    cases h
    rw [hcreate]

/-- What one action does and what it gives back. -/
def perform (p : Poller) (b : Backend σ) (w : World σ) :
    (action : Action) → Delayed action.Reply × World σ
  | .state => (⟨w.control.state, none⟩, w)
  | .generation => (⟨w.control.generation, none⟩, w)
  | .authRequired => (⟨b.authRequired backgroundPath w.backend, none⟩, w)
  | .resume =>
    let (resumed, control) := w.control.resume w.now
    (⟨resumed, none⟩, { w with control })
  | .count counter n => (⟨(), none⟩, { w with counters := w.counters.add counter n })
  | .cursor who => (⟨w.history.cursor who, none⟩, w)
  | .create =>
    let (path, backend) := b.create w.backend
    (⟨path, none⟩, { w with backend })
  | .openSession path consumer user =>
    let (opened, backend) := b.openSession path consumer user w.backend
    (⟨opened, none⟩, { w with backend })
  | .closeSession path => (⟨(), none⟩, { w with backend := b.closeSession path w.backend })
  | .read path cursor params =>
    let (answer, backend) := b.read path cursor params w.backend
    (answer, { w with backend })
  | .update path payload headers =>
    let (answer, backend) := b.update path payload headers w.backend
    (answer, { w with backend })
  | .suspend asked =>
    let (wait, control) := w.control.suspend w.now asked p.settings.autoDelay
    (⟨wait, none⟩, { w with control })
  | .seen who id => (⟨w.history.seen who id, none⟩, w)
  | .dispatch delivery =>
    let (accepted, sink) := w.sink.accept delivery
    (⟨accepted, none⟩, { w with sink })
  | .record who id => (⟨(), none⟩, { w with history := w.history.record who id })

/-- Carries out a whole plan with nothing in between. -/
def run {α : Type} (p : Poller) (b : Backend σ) : Plan α → World σ → α × World σ
  | .done a, w => (a, w)
  | .act action next, w =>
    let (answer, w) := w.perform p b action
    run p b (next answer.value) w

end World
end FeedPoller
