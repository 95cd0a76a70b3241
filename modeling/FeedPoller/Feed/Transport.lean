import FeedPoller.Feed.Path
import FeedPoller.Http.Wire

/-! What carries the requests of a path: prepared replies, or a connection. -/

namespace FeedPoller.Feed

/-- Replies prepared beforehand and taken in turn; the requests are kept, the newest first. -/
structure Prepared where
  replies : List Http.Reply
  requests : List Http.Request := []

def Prepared.send (r : Http.Request) (t : Prepared) : Except FetchFailure Http.Reply × Prepared :=
  let requests := r :: t.requests
  match t.replies with
  | reply :: replies => (.ok reply, ⟨replies, requests⟩)
  | [] => (.error ⟨"no fixture response queued for " ++ r.url, none⟩, { t with requests })

/-- Any of them. -/
inductive Transport where
  | prepared (t : Prepared)
  | wire (w : Http.Wire)

def Transport.send (r : Http.Request) : Transport → Except FetchFailure Http.Reply × Transport
  | .prepared t =>
    let (reply, t) := t.send r
    (reply, .prepared t)
  | .wire w =>
    let (reply, w) := w.send r
    (reply, .wire w)

namespace Path

/-- Reads the items after a cursor. -/
def read (p : Path) (now : Moment) (cursor : Option String) (params : Json.Fields) (t : Transport) :
    Except ReadFailure (List Item) × Path × Transport :=
  let p := p.afterRead now
  match p.readRequest cursor params with
  | none => (.ok [], p, t)
  | some r =>
    let (reply, t) := t.send r
    match reply with
    | .error e => (.error (.fetch e), p, t)
    | .ok reply => (p.readReply r.url now reply, p, t)

/-- Submits a payload. -/
def update (p : Path) (payload : Json.Value) (headers : Json.Fields) (t : Transport) :
    Except FetchFailure (Option Item) × Transport :=
  match p.updateRequest payload headers with
  | .error e => (.error e, t)
  | .ok r =>
    let (reply, t) := t.send r
    match reply with
    | .error e => (.error e, t)
    | .ok reply => (updateReply reply, t)

/-! ## What is sent -/

theorem path_read (p : Path) (now : Moment) (cursor : Option String) (params : Json.Fields)
    (t : Transport) : (p.read now cursor params t).2.1 = p.afterRead now := by
  unfold read
  dsimp only
  split
  · rfl
  · split <;> rfl

/-- A read sends its request, and nothing else. -/
theorem transport_read (p : Path) (now : Moment) (cursor : Option String) (params : Json.Fields)
    (t : Transport) : (p.read now cursor params t).2.2 =
      match p.readRequest cursor params with
      | some r => (t.send r).2
      | none => t := by
  have hrequest : (p.afterRead now).readRequest cursor params = p.readRequest cursor params := rfl
  unfold read
  dsimp only
  rw [hrequest]
  cases p.readRequest cursor params with
  | none => rfl
  | some r =>
    dsimp only
    split <;> rfl

theorem transport_update (p : Path) (payload : Json.Value) (headers : Json.Fields) (t : Transport) :
    (p.update payload headers t).2 =
      match (p.updateRequest payload headers).toOption with
      | some r => (t.send r).2
      | none => t := by
  unfold update
  cases p.updateRequest payload headers with
  | error e => rfl
  | ok r =>
    dsimp only
    split <;> rfl

end Path
end FeedPoller.Feed
