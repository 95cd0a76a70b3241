import FeedPoller.Feed.Kind
import FeedPoller.Feed.Query
import FeedPoller.Feed.Quota
import FeedPoller.Feed.Status

/-! A path to a feed: what it asks for a read and for an update, what it makes of the replies, and the
session under which it asks. -/

namespace FeedPoller.Feed

/-- Where a feed is found. Search may have an address of its own. With `wired` set, requests go over
a connection, so that what a session sends has to be fit for a header. -/
structure Source where
  kind : Kind
  baseUrl : String
  searchUrl : Option String := none
  wired : Bool := false
  deriving Repr

/-- A session is known by the authorization it sends. -/
structure Path where
  source : Source
  session : Option String := none
  firstRead : Option Moment := none
  deriving Repr

namespace Source

/-- The address of a stream. -/
def url (s : Source) (stream : String) : String :=
  let base := if s.kind = .search then s.searchUrl.getD s.baseUrl else s.baseUrl
  base ++ (if base.endsWith "/" then "" else "/") ++ stream ++ s.kind.ending

/-- An address with a slash at its end. -/
def withSlash (address : String) : String := address ++ (if address.endsWith "/" then "" else "/")

theorem getLast?_withSlash (address : String) :
    (withSlash address).toList.getLast? = some '/' := by
  unfold withSlash
  split
  · rename_i h
    have hend : "/".toList <:+ address.toList := by
      simpa using String.Slice.endsWith_string_iff.mp h
    obtain ⟨front, hfront⟩ := hend
    rw [String.append_empty, ← hfront]
    exact List.getLast?_concat
  · rw [String.toList_append]
    exact List.getLast?_concat

/-- What the address of every stream begins with. -/
def root (s : Source) : String :=
  withSlash (if s.kind = .search then s.searchUrl.getD s.baseUrl else s.baseUrl)

theorem url_eq (s : Source) (stream : String) : s.url stream = s.root ++ stream ++ s.kind.ending :=
  rfl

/-- Only search may be somewhere else. -/
theorem root_of_ne {s : Source} (h : s.kind ≠ .search) : s.root = withSlash s.baseUrl := by
  rw [root, if_neg h]

/-- The items in the body of a reply. -/
def items (s : Source) (body : String) : Except FetchFailure (List Item) :=
  if s.kind = .search then resultsOfJson body else statusesOfXml body

end Source

namespace Path

/-! ## Reading -/

/-- The request of a read, if the kind has something to read. -/
def readRequest (p : Path) (cursor : Option String) (params : Json.Fields) : Option Http.Request :=
  p.source.kind.stream?.map fun stream =>
    { method := .get, url := p.source.url stream, params := readParams cursor params,
      authorization := p.session }

/-- What a read has from its reply. -/
def readReply (p : Path) (url : String) (now : Moment) (reply : Http.Reply) :
    Except ReadFailure (List Item) :=
  if reply.isOk then
    match p.source.items reply.body with
    | .ok items => .ok items
    | .error e => .error (.fetch e)
  else
    match Quota.probe reply (p.firstRead.getD now) now with
    | some limit => .error (.rateLimited limit)
    | none => .error (.fetch ⟨url ++ " returned HTTP " ++ toString reply.status, none⟩)

/-- The path once it has been read from. -/
def afterRead (p : Path) (now : Moment) : Path :=
  { p with firstRead := p.firstRead <|> (p.source.kind.stream?.map fun _ => now) }

/-! ## Updates -/

/-- The header with the id of the status to delete. -/
def idHeader : String := "data_id"

/-- The request of an update. A delete names its status in the address and sends no headers. -/
def updateRequest (p : Path) (payload : Json.Value) (headers : Json.Fields) :
    Except FetchFailure Http.Request :=
  let post (stream : String) (headers : Json.Fields) : Http.Request :=
    { method := .post, url := p.source.url stream, params := updateParams payload headers,
      authorization := p.session }
  if p.source.kind = .delete then
    match ((Named.get? idHeader headers).map Json.Value.plain).filter (! Text.allBlank ·) with
    | some id => .ok (post ("statuses/destroy/" ++ id) [])
    | none => .error ⟨"delete needs a `data_id` header", none⟩
  else .ok (post "statuses/update" headers)

/-- What an update has from its reply: the new status, or nothing when it was refused. -/
def updateReply (reply : Http.Reply) : Except FetchFailure (Option Item) :=
  if reply.isOk then some <$> statusOfXml reply.body else .ok none

/-- What is posted anywhere but on a path for deleting. -/
theorem updateRequest_of_ne {p : Path} {payload : Json.Value} (hkind : p.source.kind ≠ .delete) (headers : Json.Fields) :
    p.updateRequest payload headers = .ok {
      method := .post, url := p.source.url "statuses/update", params := updateParams payload headers,
      authorization := p.session } := if_neg hkind

/-- What is posted to delete a status: its id is in the address alone. -/
theorem updateRequest_of_delete {p : Path} {payload : Json.Value} (hkind : p.source.kind = .delete)
    {headers : Json.Fields} {r : Http.Request} (h : p.updateRequest payload headers = .ok r) :
    ∃ v, Named.get? idHeader headers = some v ∧ Text.allBlank v.plain = false ∧ r = {
      method := .post, url := p.source.url ("statuses/destroy/" ++ v.plain),
      params := updateParams payload [], authorization := p.session } := by
  unfold updateRequest at h
  dsimp only at h
  rw [if_pos hkind] at h
  split at h
  · rename_i id hid
    cases h
    obtain ⟨hfound, hblank⟩ := Option.filter_eq_some_iff.mp hid
    obtain ⟨v, hv, rfl⟩ := Option.map_eq_some_iff.mp hfound
    exact ⟨v, hv, by simpa using hblank, rfl⟩
  · cases h

/-- A request bears the authorization of the session that is active. -/
theorem authorization_of_readRequest {p : Path} {cursor : Option String} {params : Json.Fields}
    {r : Http.Request} (h : p.readRequest cursor params = some r) : r.authorization = p.session := by
  obtain ⟨stream, -, rfl⟩ := Option.map_eq_some_iff.mp h
  rfl

theorem authorization_of_updateRequest {p : Path} {payload : Json.Value} {headers : Json.Fields}
    {r : Http.Request} (h : p.updateRequest payload headers = .ok r) : r.authorization = p.session := by
  unfold updateRequest at h
  dsimp only at h
  split at h
  · split at h
    · cases h
      rfl
    · cases h
  · cases h
    rfl

/-! ## Sessions -/

/-- Whether a text can be sent in a header: no controls other than the tab. -/
def fitsHeader (s : String) : Bool :=
  s.toList.all fun c => c == '\t' || (0x20 ≤ c.val && c.val != 0x7F)

def checkField (whose field value : String) : Except SessionFailure Unit :=
  if Text.allBlank value then
    .error (.malformedCredentials (whose ++ " " ++ field ++ " is empty"))
  else if !fitsHeader value then
    .error (.malformedCredentials
      (whose ++ " " ++ field ++ " contains characters not allowed in headers"))
  else .ok ()

def checkCredentials (whose : String) (c : Credentials) : Except SessionFailure Unit := do
  checkField whose "token" c.token
  checkField whose "secret" c.secret

/-- What a session sends. -/
def authorizationOf (consumer user : Credentials) : String :=
  "OAuth oauth_consumer_key=\"" ++ consumer.token ++ "\", oauth_token=\"" ++ user.token ++ "\""

/-- Begins a session, in place of one that is active. -/
def openSession (p : Path) (consumer user : Credentials) : Except SessionFailure Path := do
  checkCredentials "consumer" consumer
  checkCredentials "user" user
  let authorization := authorizationOf consumer user
  if p.source.wired && !fitsHeader authorization then
    .error (.setup "failed to parse header value")
  return { p with session := some authorization }

def closeSession (p : Path) : Path := { p with session := none }

def isActive (p : Path) : Bool := p.session.isSome

/-! ## Which credentials are accepted -/

/-- Texts are fit for a header piece by piece. -/
theorem fitsHeader_append (s t : String) : fitsHeader (s ++ t) = (fitsHeader s && fitsHeader t) := by
  rw [fitsHeader, String.toList_append, List.all_append]
  rfl

/-- So what a session sends is fit whenever its tokens are. -/
theorem fitsHeader_authorizationOf (consumer user : Credentials) :
    fitsHeader (authorizationOf consumer user) = (fitsHeader consumer.token && fitsHeader user.token) := by
  -- about any texts: `simp` would take the fixed ones apart
  have hparts : ∀ a b c d e : String, fitsHeader (a ++ b ++ c ++ d ++ e) =
      (fitsHeader a && fitsHeader b && fitsHeader c && fitsHeader d && fitsHeader e) := by
    simp only [fitsHeader_append, implies_true]
  have hkey : fitsHeader "OAuth oauth_consumer_key=\"" = true := by decide +kernel
  have htoken : fitsHeader "\", oauth_token=\"" = true := by decide +kernel
  have hend : fitsHeader "\"" = true := by decide +kernel
  unfold authorizationOf
  rw [hparts, hkey, htoken, hend, Bool.true_and, Bool.and_true, Bool.and_true]

/-- A text that a session can go by: more than blanks, and fit for a header. -/
structure Sendable (s : String) : Prop where
  shows : Text.allBlank s = false
  fits : fitsHeader s = true

structure Acceptable (c : Credentials) : Prop where
  token : Sendable c.token
  secret : Sendable c.secret

theorem checkField_eq_ok_iff {whose field value : String} :
    checkField whose field value = .ok () ↔ Sendable value := by
  unfold checkField
  constructor
  · intro h
    split at h
    · cases h
    split at h
    · cases h
    rename_i hblank hfits
    exact ⟨eq_false_of_ne_true hblank, by simpa using hfits⟩
  · intro h
    simp [h.shows, h.fits]

theorem checkCredentials_eq_ok_iff (whose : String) {c : Credentials} :
    checkCredentials whose c = .ok () ↔ Acceptable c := by
  rw [checkCredentials, bind_eq_ok_iff]
  constructor
  · rintro ⟨⟨⟩, htoken, hsecret⟩
    exact ⟨checkField_eq_ok_iff.mp htoken, checkField_eq_ok_iff.mp hsecret⟩
  · intro h
    exact ⟨(), checkField_eq_ok_iff.mpr h.token, checkField_eq_ok_iff.mpr h.secret⟩

/-- Credentials are refused because of what they are, and for nothing else. -/
theorem malformed_of_checkField {whose field value : String} {e : SessionFailure}
    (h : checkField whose field value = .error e) : ∃ m, e = .malformedCredentials m := by
  unfold checkField at h
  split at h
  · cases h
    exact ⟨_, rfl⟩
  split at h
  · cases h
    exact ⟨_, rfl⟩
  · cases h

theorem malformed_of_checkCredentials {whose : String} {c : Credentials} {e : SessionFailure}
    (h : checkCredentials whose c = .error e) : ∃ m, e = .malformedCredentials m := by
  obtain htoken | ⟨-, -, hsecret⟩ := bind_eq_error_iff.mp h
  · exact malformed_of_checkField htoken
  · exact malformed_of_checkField hsecret

/-- A session needs nothing but credentials that are accepted: once they are, what it sends is fit for a
header. -/
theorem openSession_eq (p : Path) (consumer user : Credentials) :
    p.openSession consumer user = (do
      checkCredentials "consumer" consumer
      checkCredentials "user" user
      return { p with session := some (authorizationOf consumer user) }) := by
  unfold openSession
  cases hconsumer : checkCredentials "consumer" consumer with
  | error e => rfl
  | ok _ =>
    cases huser : checkCredentials "user" user with
    | error e => rfl
    | ok _ =>
      have hfits : fitsHeader (authorizationOf consumer user) = true := by
        rw [fitsHeader_authorizationOf, ((checkCredentials_eq_ok_iff _).mp hconsumer).token.fits,
          ((checkCredentials_eq_ok_iff _).mp huser).token.fits]
        rfl
      simp [hfits, bind, Except.bind, pure, Except.pure]

/-- So a session fails to be set up never, only its credentials may be malformed. -/
theorem malformed_of_openSession {p : Path} {consumer user : Credentials} {e : SessionFailure}
    (h : p.openSession consumer user = .error e) : ∃ m, e = .malformedCredentials m := by
  rw [openSession_eq] at h
  obtain hconsumer | ⟨-, -, hrest⟩ := bind_eq_error_iff.mp h
  · exact malformed_of_checkCredentials hconsumer
  obtain huser | ⟨-, -, hdone⟩ := bind_eq_error_iff.mp hrest
  · exact malformed_of_checkCredentials huser
  · cases hdone

theorem openSession_eq_ok_iff {p q : Path} {consumer user : Credentials} :
    p.openSession consumer user = .ok q ↔ Acceptable consumer ∧ Acceptable user ∧
      q = { p with session := some (authorizationOf consumer user) } := by
  rw [openSession_eq, ← checkCredentials_eq_ok_iff "consumer", ← checkCredentials_eq_ok_iff "user",
    bind_eq_ok_iff]
  constructor
  · rintro ⟨⟨⟩, hconsumer, hrest⟩
    obtain ⟨⟨⟩, huser, hdone⟩ := bind_eq_ok_iff.mp hrest
    cases hdone
    exact ⟨hconsumer, huser, rfl⟩
  · rintro ⟨hconsumer, huser, rfl⟩
    exact ⟨(), hconsumer, bind_eq_ok_iff.mpr ⟨(), huser, rfl⟩⟩

end Path
end FeedPoller.Feed
