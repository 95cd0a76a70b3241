import FeedPoller.Feed.Transport
import FeedPoller.Proofs.ByteOrder
import Mathlib.Data.List.Basic
import Mathlib.Data.List.Induction

/-! The life of a session. A path is handed around: sessions are opened on it, with a guard or without
one, guards are dropped in any order and sessions are ended, and in between requests are made. Main
statement: a session is active just when one was opened since the last was ended, each request bears what
the latest one sends, and whether one can be opened depends on the credentials alone, over a connection
as anywhere else (`session_life`). -/

namespace FeedPoller.Feed

/-! ## Texts in headers -/

/-- A byte that can stand in a header: no control but the tab. -/
def IsHeaderByte (b : UInt8) : Prop := b.toNat = 9 ∨ 32 ≤ b.toNat ∧ b.toNat ≠ 127

theorem fitsHeader_char_iff (c : Char) :
    (c == '\t' || (0x20 ≤ c.val && c.val != 0x7F)) = true ↔
      c.val.toNat = 9 ∨ 32 ≤ c.val.toNat ∧ c.val.toNat ≠ 127 := by
  have htab : c = '\t' ↔ c.val.toNat = 9 := by
    rw [← Char.val_inj, ← UInt32.toNat_inj]
    rfl
  have hlow : 0x20 ≤ c.val ↔ 32 ≤ c.val.toNat := UInt32.le_iff_toNat_le
  have hdel : c.val = 0x7F ↔ c.val.toNat = 127 := by
    rw [← UInt32.toNat_inj]
    rfl
  simp [htab, hlow, hdel]

/-- A character is a control just when one of its bytes is. -/
theorem isHeaderByte_utf8EncodeChar (c : Char) :
    (∀ b ∈ String.utf8EncodeChar c, IsHeaderByte b) ↔
      c.val.toNat = 9 ∨ 32 ≤ c.val.toNat ∧ c.val.toNat ≠ 127 := by
  unfold String.utf8EncodeChar
  dsimp only
  split
  · simp only [List.mem_singleton, forall_eq, IsHeaderByte, UInt8.toNat_ofNat']
    omega
  · -- every byte of a longer sequence has its highest bit set
    refine iff_of_true ?_ (by omega)
    repeat' split
    all_goals
      simp only [List.mem_cons, List.not_mem_nil, or_false, forall_eq_or_imp, forall_eq, IsHeaderByte,
        UInt8.toNat_ofNat']
      omega

theorem fitsHeader_iff_bytes {s : String} :
    Path.fitsHeader s = true ↔ ∀ b ∈ s.toUTF8.data.toList, IsHeaderByte b := by
  have hbytes : s.toUTF8.data.toList = s.toList.flatMap String.utf8EncodeChar := Text.bytes_eq s
  simp only [Path.fitsHeader, List.all_eq_true, hbytes, List.forall_mem_flatMap, fitsHeader_char_iff,
    isHeaderByte_utf8EncodeChar]

/-! ## A path that is handed around -/

/-- What is done with a path. A guard is known by how many guards there were before it. -/
inductive Deed where
  | init (consumer user : Credentials)
  | guarded (consumer user : Credentials)
  | drop (guard : Nat)
  | finish
  | read (now : Moment) (cursor : Option String) (params : Json.Fields)
  | update (payload : Json.Value) (headers : Json.Fields)

/-- What comes of it. -/
inductive Event where
  | opened (consumer user : Credentials)
  | refused (failure : SessionFailure)
  | ended
  | asked (request : Http.Request)
  | nothing

def Event.ofRequest : Option Http.Request → Event
  | some r => .asked r
  | none => .nothing

/-- A path with what carries its requests, the guards that are held, and how many there have been. -/
structure Handed where
  path : Path
  transport : Transport
  guards : List Nat := []
  made : Nat := 0

namespace Handed

/-- A path that nothing was done with. -/
def new (source : Source) (transport : Transport) : Handed := { path := { source }, transport }

/-- A session is ended by whichever guard is dropped, even if it was opened under another one or under
none. -/
def step (h : Handed) : Deed → Event × Handed
  | .init consumer user =>
    match h.path.openSession consumer user with
    | .error e => (.refused e, h)
    | .ok path => (.opened consumer user, { h with path })
  | .guarded consumer user =>
    match h.path.openSession consumer user with
    | .error e => (.refused e, h)
    | .ok path =>
      (.opened consumer user, { h with path, guards := h.made :: h.guards, made := h.made + 1 })
  | .drop guard =>
    if guard ∈ h.guards then
      (.ended, { h with path := h.path.closeSession, guards := h.guards.erase guard })
    else (.nothing, h)
  | .finish => (.ended, { h with path := h.path.closeSession })
  | .read now cursor params =>
    let (_, path, transport) := h.path.read now cursor params h.transport
    (.ofRequest (h.path.readRequest cursor params), { h with path, transport })
  | .update payload headers =>
    let (_, transport) := h.path.update payload headers h.transport
    (.ofRequest (h.path.updateRequest payload headers).toOption, { h with transport })

/-- What comes of deeds one after another, the first one first. -/
def run (h : Handed) : List Deed → List Event × Handed
  | [] => ([], h)
  | deed :: deeds =>
    let (event, h) := h.step deed
    let (events, h) := h.run deeds
    (event :: events, h)

theorem run_append (h : Handed) (deeds deeds' : List Deed) :
    h.run (deeds ++ deeds') =
      ((h.run deeds).1 ++ ((h.run deeds).2.run deeds').1, ((h.run deeds).2.run deeds').2) := by
  induction deeds generalizing h with
  | nil => rfl
  | cons deed deeds ih =>
    simp only [List.cons_append, run, ih]

theorem run_concat (h : Handed) (deeds : List Deed) (deed : Deed) :
    h.run (deeds ++ [deed]) =
      ((h.run deeds).1 ++ [((h.run deeds).2.step deed).1], ((h.run deeds).2.step deed).2) :=
  run_append ..

end Handed

/-! ## What the events tell -/

/-- A session was opened and none was ended since. -/
def Active (events : List Event) : Prop :=
  ∃ before consumer user after, events = before ++ .opened consumer user :: after ∧ .ended ∉ after

/-- The latest session that was opened, whether or not it is active. -/
def Latest (events : List Event) (consumer user : Credentials) : Prop :=
  ∃ before after, events = before ++ .opened consumer user :: after ∧
    ∀ consumer user, .opened consumer user ∉ after

/-- What a session sends is what the latest one sends, if one is active, and nothing otherwise. -/
structure Sends (events : List Event) (authorization : Option String) : Prop where
  active : Active events → ∃ consumer user, Latest events consumer user ∧
    authorization = some (Path.authorizationOf consumer user)
  idle : ¬ Active events → authorization = none

variable {events : List Event} {event : Event} {consumer user : Credentials}

/-- What stands in a list with one more at its end is the last, or stands before it. -/
theorem split_concat {α : Type} {xs before after : List α} {x y : α}
    (h : xs ++ [x] = before ++ y :: after) :
    xs = before ∧ x = y ∨ ∃ after', xs = before ++ y :: after' ∧ after = after' ++ [x] := by
  obtain rfl | ⟨after, last, rfl⟩ := List.eq_nil_or_concat' after
  · obtain ⟨hinit, hlast⟩ := List.append_inj' h rfl
    exact .inl ⟨hinit, List.singleton_inj.mp hlast⟩
  · rw [← List.cons_append, ← List.append_assoc] at h
    obtain ⟨hinit, hlast⟩ := List.append_inj' h rfl
    exact .inr ⟨after, hinit, by rw [hlast]⟩

theorem active_concat : Active (events ++ [event]) ↔
    (∃ consumer user, event = .opened consumer user) ∨ event ≠ .ended ∧ Active events := by
  constructor
  · rintro ⟨before, consumer, user, after, heq, hafter⟩
    obtain ⟨-, rfl⟩ | ⟨after, rfl, rfl⟩ := split_concat heq
    · exact .inl ⟨consumer, user, rfl⟩
    · simp only [List.mem_append, List.mem_singleton, not_or] at hafter
      exact .inr ⟨Ne.symm hafter.2, before, consumer, user, after, rfl, hafter.1⟩
  · rintro (⟨consumer, user, rfl⟩ | ⟨hevent, before, consumer, user, after, rfl, hafter⟩)
    · exact ⟨events, consumer, user, [], rfl, by simp⟩
    · refine ⟨before, consumer, user, after ++ [event], by simp, ?_⟩
      simp only [List.mem_append, List.mem_singleton, not_or]
      exact ⟨hafter, hevent.symm⟩

theorem Latest.concat (h : Latest events consumer user)
    (hevent : ∀ consumer user, event ≠ .opened consumer user) :
    Latest (events ++ [event]) consumer user := by
  obtain ⟨before, after, rfl, hafter⟩ := h
  refine ⟨before, after ++ [event], by simp, ?_⟩
  simp only [List.mem_append, List.mem_singleton, not_or]
  exact fun consumer user => ⟨hafter consumer user, (hevent consumer user).symm⟩

theorem latest_opened : Latest (events ++ [.opened consumer user]) consumer user :=
  ⟨events, [], rfl, by simp⟩

/-- What an event does to what a session sends. -/
theorem Sends.concat {authorization : Option String} (h : Sends events authorization)
    (hopened : ∀ consumer user, event ≠ .opened consumer user) (hended : event ≠ .ended) :
    Sends (events ++ [event]) authorization where
  active hactive := by
    obtain ⟨consumer, user, hevent⟩ | ⟨-, hactive⟩ := active_concat.mp hactive
    · exact absurd hevent (hopened consumer user)
    · obtain ⟨consumer, user, hlatest, hsends⟩ := h.active hactive
      exact ⟨consumer, user, hlatest.concat hopened, hsends⟩
  idle hidle := h.idle fun hactive => hidle (active_concat.mpr (.inr ⟨hended, hactive⟩))

theorem sends_opened : Sends (events ++ [.opened consumer user])
    (some (Path.authorizationOf consumer user)) where
  active _ := ⟨consumer, user, latest_opened, rfl⟩
  idle hidle := absurd (active_concat.mpr (.inl ⟨consumer, user, rfl⟩)) hidle

theorem sends_ended : Sends (events ++ [.ended]) none where
  active hactive := by
    obtain ⟨_, _, hevent⟩ | ⟨hended, -⟩ := active_concat.mp hactive
    · cases hevent
    · exact absurd rfl hended
  idle _ := rfl

/-! ## One deed -/

/-- What can come of a deed. -/
inductive Came (h : Handed) : Event → Handed → Prop
  | opened {h' : Handed} {consumer user : Credentials} :
      h'.path.session = some (Path.authorizationOf consumer user) → h'.transport = h.transport →
      Came h (.opened consumer user) h'
  | refused {failure : SessionFailure} : Came h (.refused failure) h
  | ended {h' : Handed} : h'.path.session = none → h'.transport = h.transport → Came h .ended h'
  | asked {h' : Handed} {r : Http.Request} : r.authorization = h.path.session →
      h'.path.session = h.path.session → h'.transport = (h.transport.send r).2 → Came h (.asked r) h'
  | nothing {h' : Handed} : h'.path.session = h.path.session → h'.transport = h.transport →
      Came h .nothing h'

/-- A request that bears the authorization of its path, if there is one. -/
theorem came_ofRequest {h h' : Handed} {request? : Option Http.Request}
    (hsession : h'.path.session = h.path.session)
    (htransport : h'.transport =
      match request? with
      | some r => (h.transport.send r).2
      | none => h.transport)
    (hbears : ∀ r, request? = some r → r.authorization = h.path.session) :
    Came h (.ofRequest request?) h' := by
  cases request? with
  | none => exact .nothing hsession htransport
  | some r => exact .asked (hbears r rfl) hsession htransport

theorem came_step (h : Handed) (deed : Deed) : Came h (h.step deed).1 (h.step deed).2 := by
  cases deed with
  | init consumer user =>
    unfold Handed.step
    dsimp only
    split
    · exact .refused
    · rename_i hopen
      obtain ⟨-, -, rfl⟩ := Path.openSession_eq_ok_iff.mp hopen
      exact .opened rfl rfl
  | guarded consumer user =>
    unfold Handed.step
    dsimp only
    split
    · exact .refused
    · rename_i hopen
      obtain ⟨-, -, rfl⟩ := Path.openSession_eq_ok_iff.mp hopen
      exact .opened rfl rfl
  | drop guard =>
    unfold Handed.step
    dsimp only
    split
    · exact .ended rfl rfl
    · exact .nothing rfl rfl
  | finish => exact .ended rfl rfl
  | read now cursor params =>
    refine came_ofRequest ?_ (Path.transport_read ..) fun r => Path.authorization_of_readRequest
    show (h.path.read now cursor params h.transport).2.1.session = _
    rw [Path.path_read]
    rfl
  | update payload headers =>
    refine came_ofRequest rfl (Path.transport_update ..) fun r hr => ?_
    cases hrequest : h.path.updateRequest payload headers with
    | error _ => simp [hrequest, Except.toOption] at hr
    | ok r' =>
      rw [hrequest] at hr
      cases hr
      exact Path.authorization_of_updateRequest hrequest

theorem Came.sends {h h' : Handed} (hcame : Came h event h') (hsends : Sends events h.path.session) :
    Sends (events ++ [event]) h'.path.session := by
  cases hcame with
  | opened hsession => exact hsession ▸ sends_opened
  | refused => exact hsends.concat (by simp) (by simp)
  | ended hsession => exact hsession ▸ sends_ended
  | asked _ hsession | nothing hsession => exact hsession ▸ hsends.concat (by simp) (by simp)

/-! ## All deeds -/

def Event.request? : Event → Option Http.Request
  | .asked r => some r
  | _ => none

/-- What is known of a path from the events on it. -/
structure SessionLife (h h' : Handed) (events : List Event) : Prop where
  /-- A session is active just when one was opened since the last end of one. -/
  active : h'.path.isActive = true ↔ Active events
  /-- What is asked next bears what the latest one sends, if it is active. -/
  sends : Sends events h'.path.session
  /-- So did whatever was asked before. -/
  asked : ∀ before r after, events = before ++ .asked r :: after → Sends before r.authorization
  /-- And nothing else was sent. -/
  carried : h'.transport =
    (events.filterMap Event.request?).foldl (fun t r => (t.send r).2) h.transport

/-- At first no session was opened. -/
theorem sends_nil : Sends [] none where
  active hactive := by
    obtain ⟨before, _, _, _, hnil, -⟩ := hactive
    cases before <;> cases hnil
  idle _ := rfl

theorem SessionLife.active_of_sends {authorization : Option String}
    (h : Sends events authorization) : authorization.isSome = true ↔ Active events := by
  constructor
  · intro hsome
    by_contra hidle
    rw [h.idle hidle] at hsome
    cases hsome
  · intro hactive
    obtain ⟨_, _, -, rfl⟩ := h.active hactive
    rfl

theorem SessionLife.step {h h' h'' : Handed} (hlife : SessionLife h h' events)
    (hcame : Came h' event h'') : SessionLife h h'' (events ++ [event]) where
  active := SessionLife.active_of_sends (hcame.sends hlife.sends)
  sends := hcame.sends hlife.sends
  asked before r after heq := by
    obtain ⟨rfl, rfl⟩ | ⟨after, rfl, -⟩ := split_concat heq
    · cases hcame with
      | asked hbears => exact hbears ▸ hlife.sends
    · exact hlife.asked before r after rfl
  carried := by
    rw [List.filterMap_append, List.foldl_append, ← hlife.carried]
    cases hcame with
    | refused => rfl
    | opened _ htransport | ended _ htransport | asked _ _ htransport | nothing _ htransport =>
      exact htransport

theorem sessionLife_run {h : Handed} (hnone : h.path.session = none) (deeds : List Deed) :
    SessionLife h (h.run deeds).2 (h.run deeds).1 := by
  induction deeds using List.reverseRecOn with
  | nil =>
    refine { active := ?_, sends := ?_, asked := ?_, carried := rfl }
    · exact SessionLife.active_of_sends (hnone ▸ sends_nil)
    · exact hnone ▸ sends_nil
    · intro before r after hnil
      cases before <;> cases hnil
  | append_singleton deeds deed ih =>
    rw [Handed.run_concat]
    exact ih.step (came_step ..)

/-! ## Opening a session -/

/-- Where a path leads has no part in whether a session can be opened on it. -/
structure OpensAlike (p q : Path) (consumer user : Credentials) : Prop where
  accepted : (∃ p', p.openSession consumer user = .ok p') ↔
    Path.Acceptable consumer ∧ Path.Acceptable user
  alike : (p.openSession consumer user).map Path.session =
    (q.openSession consumer user).map Path.session
  malformed : ∀ e, p.openSession consumer user = .error e → ∃ m, e = .malformedCredentials m

theorem opensAlike (p q : Path) (consumer user : Credentials) : OpensAlike p q consumer user where
  accepted := by
    simp only [Path.openSession_eq_ok_iff]
    exact ⟨fun ⟨_, hconsumer, huser, _⟩ => ⟨hconsumer, huser⟩,
      fun ⟨hconsumer, huser⟩ => ⟨_, hconsumer, huser, rfl⟩⟩
  alike := by
    rw [Path.openSession_eq, Path.openSession_eq]
    cases Path.checkCredentials "consumer" consumer with
    | error e => rfl
    | ok _ => cases Path.checkCredentials "user" user <;> rfl
  malformed _ := Path.malformed_of_openSession

/-- Of every path, whatever is done with it from its start on and however its guards are nested. A
session that is refused changes nothing; and whether it is does not depend on the path, over a connection
no more than without one, since whatever passes the check of credentials can be sent in a header, byte
for byte. -/
theorem session_life (source : Source) (transport : Transport) (deeds : List Deed) :
    SessionLife (.new source transport) ((Handed.new source transport).run deeds).2
        ((Handed.new source transport).run deeds).1 ∧
      (∀ h deed failure, (Handed.step h deed).1 = .refused failure → (h.step deed).2 = h) ∧
      (∀ p q consumer user, OpensAlike p q consumer user) ∧
      ∀ s, Path.fitsHeader s = true ↔ ∀ b ∈ s.toUTF8.data.toList, IsHeaderByte b := by
  refine ⟨sessionLife_run rfl deeds, ?_, opensAlike, fun _ => fitsHeader_iff_bytes⟩
  intro h deed failure hrefused
  have hcame := came_step h deed
  rw [hrefused] at hcame
  generalize (h.step deed).2 = h' at hcame
  cases hcame
  rfl

/-- Two guards are held; the user of the third session has no token. -/
def overlapping : List Deed :=
  [.guarded ⟨"app", "s"⟩ ⟨"ann", "t"⟩, .guarded ⟨"app", "s"⟩ ⟨"bob", "u"⟩,
    .init ⟨"app", "s"⟩ ⟨"", "v"⟩, .read ⟨0⟩ none [], .drop 0, .read ⟨0⟩ none [],
    .init ⟨"app", "s"⟩ ⟨"eve", "w"⟩, .read ⟨0⟩ none [], .drop 1, .read ⟨0⟩ none []]

def handedHome : Handed :=
  .new { kind := .home, baseUrl := "http://feed" } (.prepared { replies := [] })

/-- One guard ends a session that was opened under another, which ends one that was opened under none. -/
theorem overlapping_session_life :
    (handedHome.run overlapping).1.filterMap
        (fun event => event.request?.map Http.Request.authorization) =
        [some "OAuth oauth_consumer_key=\"app\", oauth_token=\"bob\"", none,
          some "OAuth oauth_consumer_key=\"app\", oauth_token=\"eve\"", none] ∧
      SessionLife handedHome (handedHome.run overlapping).2 (handedHome.run overlapping).1 :=
  ⟨by decide +kernel, (session_life _ _ overlapping).1⟩

end FeedPoller.Feed
