import FeedPoller.Failure
import FeedPoller.Item
import FeedPoller.Json.Reader
import FeedPoller.Xml.Document

/-! Items from the bodies of replies: lists of statuses in XML, one status in XML, and search results
in JSON. The payload of an item is the whole status. -/

namespace FeedPoller.Feed

def xmlFailure : Xml.Fault → FetchFailure
  | .malformed => ⟨"parsing status xml", some "malformed xml"⟩
  | .truncated => ⟨"truncated status xml", none⟩
  | .noRoot => ⟨"status xml has no root element", none⟩

/-- The item of a status; its id is the text of the element `id` without blanks around it. -/
def statusItem (status : Json.Value) : Except FetchFailure Item :=
  let id := Text.trim (((status.get? "id").bind Json.Value.str?).getD "")
  if id.isEmpty then .error ⟨"status without id", none⟩
  else .ok { id, payload := status }

def xmlDocument (body : String) : Except FetchFailure Json.Value :=
  match Xml.document body with
  | .ok v => .ok v
  | .error e => .error (xmlFailure e)

/-- The item of a document that is one status. -/
def statusOfXml (body : String) : Except FetchFailure Item := do
  statusItem (← xmlDocument body)

/-- The items of the `status` elements under the root, in document order. A blank body has none. -/
def statusesOfXml (body : String) : Except FetchFailure (List Item) := do
  if Text.allBlank body then return []
  match ((← xmlDocument body).get? "status").getD .null with
  | .null => return []
  | .list statuses => statuses.mapM statusItem
  | status => return [← statusItem status]

/-- The item of a search result; its id is the text under `id_str`, as it stands. -/
def resultItem (result : Json.Value) : Except FetchFailure Item :=
  match (result.get? "id_str").bind Json.Value.str? with
  | some id => .ok { id, payload := result }
  | none => .error ⟨"search result without `id_str`", none⟩

/-- The items of the list under `results`, in order. -/
def resultsOfJson (body : String) : Except FetchFailure (List Item) :=
  match Json.parse body with
  | .error _ => .error ⟨"parsing search json", some "malformed json"⟩
  | .ok v =>
    match (v.get? "results").bind Json.Value.list? with
    | none => .error ⟨"search response has no `results` array", none⟩
    | some results => results.mapM resultItem

end FeedPoller.Feed
