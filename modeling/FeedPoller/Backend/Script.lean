import FeedPoller.World

/-! A backend that plays a script: the outcomes of reads and updates are written down beforehand and
taken in turn, and every call is kept. -/

namespace FeedPoller

namespace Script

/-- A call, with what it was made with. `session` tells whether the path had an active one. -/
inductive Call where
  | read (path : PathId) (cursor : Option String) (params : Json.Fields) (session : Bool)
  | update (path : PathId) (payload : Json.Value) (headers : Json.Fields) (session : Bool)
  | opened (path : PathId) (consumer user : String)
  | closed (path : PathId)

/-- An outcome and the milliseconds it takes. -/
structure ReadOutcome where
  result : Except ReadFailure (List Item)
  wait : Option Nat := none

structure UpdateOutcome where
  result : Except FetchFailure (Option Item)
  wait : Option Nat := none

end Script

/-- Without `sessions` a path has no sessions at all. With `fresh` each path made is a new one, else
they are all the first. The calls are kept the newest first. -/
structure Script where
  sessions : Bool := false
  authRequired : Bool := false
  rejectSessions : Bool := false
  fresh : Bool := false
  failCreate : Option (Nat × Failure) := none
  reads : List Script.ReadOutcome := []
  updates : List Script.UpdateOutcome := []
  created : Nat := 0
  active : List PathId := []
  calls : List Script.Call := []

namespace Script

def log (s : Script) (call : Call) : Script := { s with calls := call :: s.calls }

def create (s : Script) : Except Failure PathId × Script :=
  let after := { s with created := s.created + 1 }
  match s.failCreate with
  | some (n, e) =>
    if n = s.created then (.error e, after) else (.ok (if s.fresh then s.created else 0), after)
  | none => (.ok (if s.fresh then s.created else 0), after)

def openSession (path : PathId) (consumer user : Credentials) (s : Script) :
    Except SessionFailure Unit × Script :=
  if !s.sessions then (.ok (), s)
  else
    let s := s.log (.opened path consumer.token user.token)
    if s.rejectSessions then (.error (.malformedCredentials "rejected by script"), s)
    else (.ok (), { s with active := path :: s.active })

def isActive (s : Script) (path : PathId) : Bool := s.active.contains path

def closeSession (path : PathId) (s : Script) : Script :=
  if s.isActive path then
    { s.log (.closed path) with active := s.active.filter (· != path) }
  else s

def read (path : PathId) (cursor : Option String) (params : Json.Fields) (s : Script) :
    Delayed (Except ReadFailure (List Item)) × Script :=
  let s := s.log (.read path cursor params (s.isActive path))
  match s.reads with
  | [] => (⟨.ok [], none⟩, s)
  | o :: rest => (⟨o.result, o.wait⟩, { s with reads := rest })

def update (path : PathId) (payload : Json.Value) (headers : Json.Fields) (s : Script) :
    Delayed (Except FetchFailure (Option Item)) × Script :=
  let s := s.log (.update path payload headers (s.isActive path))
  match s.updates with
  | [] => (⟨.ok none, none⟩, s)
  | o :: rest => (⟨o.result, o.wait⟩, { s with updates := rest })

def backend : Backend Script where
  create
  authRequired _ s := s.sessions && s.authRequired
  openSession
  closeSession
  read
  update

end Script
end FeedPoller
