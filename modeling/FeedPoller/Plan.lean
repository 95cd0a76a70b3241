import FeedPoller.Control
import FeedPoller.Counters
import FeedPoller.Item

/-! Operations as plans. A plan is a finite tree of actions, each of which is one atomic step: what comes
between two actions of a plan may be anything that other plans do. -/

namespace FeedPoller

/-- A path by its number; the first one is the background path. -/
abbrev PathId := Nat

def backgroundPath : PathId := 0

/-- One atomic step. -/
inductive Action where
  | state
  | generation
  | authRequired
  | resume
  | count (counter : Counter) (n : Nat)
  | cursor (who : Identity)
  | create
  | openSession (path : PathId) (consumer user : Credentials)
  | closeSession (path : PathId)
  | read (path : PathId) (cursor : Option String) (params : Json.Fields)
  | update (path : PathId) (payload : Json.Value) (headers : Json.Fields)
  | suspend (asked : RateLimit)
  | seen (who : Identity) (id : String)
  | dispatch (delivery : Delivery)
  | record (who : Identity) (id : String)

/-- What a step gives back. -/
abbrev Action.Reply : Action → Type
  | .state => PollState
  | .generation => Nat
  | .authRequired => Bool
  | .resume => Bool
  | .count .. => Unit
  | .cursor _ => Option String
  | .create => Except Failure PathId
  | .openSession .. => Except SessionFailure Unit
  | .closeSession _ => Unit
  | .read .. => Except ReadFailure (List Item)
  | .update .. => Except FetchFailure (Option Item)
  | .suspend _ => Span
  | .seen .. => Bool
  | .dispatch _ => Except String Unit
  | .record .. => Unit

inductive Plan (α : Type) where
  | done (a : α)
  | act (action : Action) (next : action.Reply → Plan α)

namespace Plan

variable {α β : Type}

def bind : Plan α → (α → Plan β) → Plan β
  | .done a, f => f a
  | .act action next, f => .act action fun reply => (next reply).bind f

instance : Monad Plan where
  pure := .done
  bind := Plan.bind

instance : Inhabited (Plan Unit) := ⟨.done ()⟩

/-- The plan of one action. -/
def one (action : Action) : Plan action.Reply := .act action .done

theorem bind_done (p : Plan α) : p.bind .done = p := by
  induction p with
  | done a => rfl
  | act action next ih => simp [bind, ih]

theorem bind_assoc {γ : Type} (p : Plan α) (f : α → Plan β) (g : β → Plan γ) :
    (p.bind f).bind g = p.bind fun a => (f a).bind g := by
  induction p with
  | done a => rfl
  | act action next ih => simp [bind, ih]

instance : LawfulMonad Plan := .mk' Plan bind_done (fun _ _ => rfl) bind_assoc

end Plan
end FeedPoller
