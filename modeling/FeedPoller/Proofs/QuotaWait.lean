import FeedPoller.Backend.StatusFeed
import FeedPoller.Proofs.PollAsCycle
import FeedPoller.Proofs.QuotaProbe

/-! How long a feed is left alone when it says that no requests are left but not until when. The
first read of a path begins an hour that is never begun anew; a read begins at one moment and is
answered at another. Main statement: in the whole life of a path such an answer is a rate limit for
what is left of that hour, nothing once it is over, and for so long the poller is suspended
(`suspended_for_rest`). -/

namespace FeedPoller

namespace Feed

/-! ## The life of a path -/

namespace Path

/-- A read that begins at one moment and is answered at another. -/
def readOver (p : Path) (begun answered : Moment) (cursor : Option String) (params : Json.Fields)
    (t : Transport) : Except ReadFailure (List Item) × Path × Transport :=
  let p := p.afterRead begun
  match p.readRequest cursor params with
  | none => (.ok [], p, t)
  | some r =>
    let (reply, t) := t.send r
    match reply with
    | .error e => (.error (.fetch e), p, t)
    | .ok reply => (p.readReply r.url answered reply, p, t)

/-- Where the clock stands still, the two moments are one. -/
theorem read_eq_readOver (p : Path) (now : Moment) (cursor : Option String) (params : Json.Fields)
    (t : Transport) : p.read now cursor params t = p.readOver now now cursor params t := rfl

/-- What changes a path. An update does not. -/
inductive Use where
  | read (begun answered : Moment) (cursor : Option String) (params : Json.Fields) (t : Transport)
  | openSession (consumer user : Credentials)
  | closeSession

/-- When a read began. -/
def Use.begun? : Use → Option Moment
  | .read begun .. => some begun
  | .openSession .. | .closeSession => none

def use (p : Path) : Use → Path
  | .read begun answered cursor params t => (p.readOver begun answered cursor params t).2.1
  | .openSession consumer user => (p.openSession consumer user).toOption.getD p
  | .closeSession => p.closeSession

def after (p : Path) (uses : List Use) : Path := uses.foldl use p

theorem path_readOver (p : Path) (begun answered : Moment) (cursor : Option String)
    (params : Json.Fields) (t : Transport) :
    (p.readOver begun answered cursor params t).2.1 = p.afterRead begun := by
  unfold readOver
  dsimp only
  split
  · rfl
  · split <;> rfl

/-- A session only changes what a path sends. -/
theorem use_openSession (p : Path) (consumer user : Credentials) :
    ∃ session, p.use (.openSession consumer user) = { p with session } := by
  show ∃ session, (p.openSession consumer user).toOption.getD p = { p with session }
  cases h : p.openSession consumer user with
  | error e => exact ⟨p.session, rfl⟩
  | ok q =>
    obtain ⟨-, -, rfl⟩ := openSession_eq_ok_iff.mp h
    exact ⟨_, rfl⟩

theorem source_use (p : Path) (u : Use) : (p.use u).source = p.source := by
  cases u with
  | read => rw [use, path_readOver]; rfl
  | openSession consumer user =>
    obtain ⟨session, h⟩ := p.use_openSession consumer user
    rw [h]
  | closeSession => rfl

/-- Only the first read is taken down, and nothing but a read is. -/
theorem firstRead_use {p : Path} (hstream : p.source.kind.stream?.isSome = true) (u : Use) :
    (p.use u).firstRead = p.firstRead.or u.begun? := by
  cases u with
  | read begun =>
    obtain ⟨stream, hstream⟩ := Option.isSome_iff_exists.mp hstream
    rw [use, path_readOver, afterRead, hstream]
    cases p.firstRead <;> rfl
  | openSession consumer user =>
    obtain ⟨session, h⟩ := p.use_openSession consumer user
    rw [h, Use.begun?, Option.or_none]
  | closeSession => rw [Use.begun?, Option.or_none]; rfl

/-- However long the life of a path, it knows when it was first read. -/
theorem firstRead_after {p : Path} (hstream : p.source.kind.stream?.isSome = true)
    (uses : List Use) : (p.after uses).firstRead = p.firstRead.or (uses.findSome? Use.begun?) := by
  induction uses generalizing p with
  | nil => exact Option.or_none.symm
  | cons u uses ih =>
    have hstream' : (p.use u).source.kind.stream?.isSome = true := by rwa [source_use]
    show ((p.use u).after uses).firstRead = _
    rw [ih hstream', firstRead_use hstream, Option.or_assoc, List.findSome?_cons]
    cases u.begun? <;> rfl

theorem source_after (p : Path) (uses : List Use) : (p.after uses).source = p.source := by
  induction uses generalizing p with
  | nil => rfl
  | cons u uses ih => exact (ih (p.use u)).trans (p.source_use u)

/-! ## A read that is refused -/

/-- The reply to a read: no requests are left, and it is not told until when. -/
structure Exhausted (reply : Http.Reply) : Prop where
  refused : reply.isOk = false
  noneLeft : Quota.number? reply Quota.remainingHeader = some 0
  noReset : Quota.number? reply Quota.resetHeader = none

/-- There is something to read, and that is the reply. -/
def Exhausts (p : Path) (cursor : Option String) (params : Json.Fields) (t : Transport) : Prop :=
  ∃ request reply, p.readRequest cursor params = some request ∧ (t.send request).1 = .ok reply ∧
    Exhausted reply

theorem probe_of_exhausted {reply : Http.Reply} (h : Exhausted reply) (first now : Moment) :
    Quota.probe reply first now = some ⟨Quota.restOfHour first now⟩ := by
  rw [Quota.probe, h.noneLeft, h.noReset]
  rfl

variable {p : Path} {cursor : Option String} {params : Json.Fields} {t : Transport}

theorem Exhausts.stream (h : p.Exhausts cursor params t) :
    p.source.kind.stream?.isSome = true := by
  obtain ⟨request, -, hrequest, -⟩ := h
  rw [readRequest, Option.map_eq_some_iff] at hrequest
  obtain ⟨stream, hstream, -⟩ := hrequest
  rw [hstream]
  rfl

theorem readOver_of_exhausts (h : p.Exhausts cursor params t) (begun answered : Moment) :
    (p.readOver begun answered cursor params t).1 =
      .error (.rateLimited ⟨Quota.restOfHour (p.firstRead.getD begun) answered⟩) := by
  have hfirst : (p.afterRead begun).firstRead = some (p.firstRead.getD begun) := by
    rw [← path_readOver p begun answered cursor params t]
    refine (firstRead_use h.stream (.read begun answered cursor params t)).trans ?_
    cases p.firstRead <;> rfl
  obtain ⟨request, reply, hrequest, hsent, hreply⟩ := h
  have hrequest' : (p.afterRead begun).readRequest cursor params = some request := hrequest
  unfold readOver
  dsimp only
  rw [hrequest']
  dsimp only
  rw [hsent]
  show (p.afterRead begun).readReply request.url answered reply = _
  rw [readReply, hreply.refused, hfirst, Option.getD_some, probe_of_exhausted hreply]
  rfl

end Path

/-! ## The wait -/

/-- The wait is what is left of the hour: at most all of it, and nothing once it is over. -/
structure LeftOfHour (first answered : Moment) (wait : Span) : Prop where
  nanos : (wait.nanos : Int) = max 0 (3600000000000 - max 0 (answered.nanos - first.nanos))
  atMost : wait.nanos ≤ 3600000000000
  pos_iff : 0 < wait.nanos ↔ answered.nanos - first.nanos < 3600000000000

theorem leftOfHour_restOfHour (first answered : Moment) :
    LeftOfHour first answered (Quota.restOfHour first answered) := by
  have hnanos := Quota.nanos_restOfHour first answered
  refine ⟨hnanos, ?_, ?_⟩
  · omega
  · omega

end Feed

/-! ## The suspension -/

/-- Polling is suspended anew from there on, with a timer that is due after the wait. -/
structure SuspendsFor {σ : Type} (wait : Span) (w : World σ)
    (ran : Ran σ (Except Failure CycleReport)) : Prop where
  reported : ran.outcome = .ok { suspendedFor := some wait }
  state : ran.world.control.state = .suspended
  generation : ran.world.control.generation = w.control.generation + 1
  timer : ran.world.control.timer = some ⟨w.control.generation + 1, w.now + wait.nanos⟩

variable {σ : Type} {p : Poller} {b : Backend σ}

/-- Whatever goes on while a poll waits for its read: if that is a rate limit, the poll does nothing
then but suspend. -/
theorem suspendsFor_of_read (hauto : p.settings.autoDelay = false) {w : World σ} {path : PathId}
    {cursor : Option String} {params : Json.Fields} {wait : Span}
    (hread : (b.read path cursor params w.backend).1.value = .error (.rateLimited ⟨wait⟩))
    (who : Identity) (creds : CredentialSet) (amid : Nat → World σ → World σ) (n : Nat) :
    SuspendsFor wait (amid n (w.perform p b (.read path cursor params)).2)
      (w.runAmid p b amid (p.poll path who cursor params creds) n) := by
  simp only [Poller.poll, Plan.one, bind, Plan.bind, World.runAmid, World.perform, hread, hauto,
    Action.waits, if_true]
  exact ⟨rfl, rfl, rfl, rfl⟩

open Feed in
/-- A path to a source, whatever it was used for, and a read that finds that no requests are left:
it is a rate limit for what is left of the hour that began with the first read, be that this one,
and a poll that hears of it is suspended for so long. -/
theorem suspended_for_rest (source : Source) (uses : List Path.Use) {cursor : Option String}
    {params : Json.Fields} {t : Transport}
    (h : (Path.after { source } uses).Exhausts cursor params t) (begun answered : Moment) :
    ∃ wait, LeftOfHour ((uses.findSome? Path.Use.begun?).getD begun) answered wait ∧
      ((Path.after { source } uses).readOver begun answered cursor params t).1 =
        .error (.rateLimited ⟨wait⟩) ∧
      ∀ {σ : Type} (p : Poller) (b : Backend σ) (w : World σ) (path : PathId) (who : Identity)
        (creds : CredentialSet) (amid : Nat → World σ → World σ) (n : Nat),
        p.settings.autoDelay = false →
        (b.read path cursor params w.backend).1.value =
          ((Path.after { source } uses).readOver begun answered cursor params t).1 →
        SuspendsFor wait (amid n (w.perform p b (.read path cursor params)).2)
          (w.runAmid p b amid (p.poll path who cursor params creds) n) := by
  have hfirst : (Path.after { source } uses).firstRead = uses.findSome? Path.Use.begun? := by
    refine (Path.firstRead_after ?_ uses).trans rfl
    have hstream := h.stream
    rwa [Path.source_after] at hstream
  have hread := Path.readOver_of_exhausts h begun answered
  rw [hfirst] at hread
  refine ⟨_, leftOfHour_restOfHour .., hread, ?_⟩
  intro σ p b w path who creds amid n hauto hanswer
  exact suspendsFor_of_read hauto (hanswer.trans hread) who creds amid n

/-! ## A feed with nothing left -/

section Spent

open Feed

def spent : Http.Reply := .ofHeaders 429 "" [(Quota.remainingHeader, "0")]

theorem exhausted_spent : Path.Exhausted spent := by
  refine ⟨rfl, Quota.number?_ofHeaders_iff.mpr ?_, Quota.number?_eq_none ?_⟩
  · exact ⟨"0", ⟨[], _, [], rfl, rfl, by simp⟩, Text.int64?_trimBy_iff.mp (by decide)⟩
  · rintro n ⟨value, ⟨earlier, sent, later, heq, hsent, -⟩, -⟩
    have hmem : (sent, value) ∈ [(Quota.remainingHeader, "0")] := by
      rw [heq]
      simp
    obtain ⟨rfl, -⟩ := Prod.mk.inj (List.mem_singleton.mp hmem)
    rw [Quota.lower_remainingHeader, Quota.lower_resetHeader] at hsent
    exact absurd hsent (by decide)

/-- The life of a path that was read at the epoch, to no avail. -/
def readAtEpoch : List Path.Use := [.read ⟨0⟩ ⟨0⟩ none [] (.prepared { replies := [] })]

def spentSource : Source := { kind := .everyone, baseUrl := "http://feed" }

def spentPath : Path := Path.after { source := spentSource } readAtEpoch

/-- It is the background path, and nothing is left at any later moment. -/
def spentWorld (moment : Moment) : World StatusFeed where
  backend := {
    source := spentSource, moment, paths := #[spentPath]
    transport := .prepared { replies := [spent] } }
  history := .new 1 false

def spentPoller : Poller := { settings := {}, background := {} }

/-- What a poll makes of it, with nothing going on meanwhile. -/
def spentPoll (moment : Moment) : Ran StatusFeed (Except Failure CycleReport) :=
  (spentWorld moment).runAmid spentPoller StatusFeed.backend (fun _ w => w)
    (spentPoller.poll backgroundPath .shared none [] {}) 0

theorem exhausts_spentPath : spentPath.Exhausts none [] (.prepared { replies := [spent] }) :=
  ⟨_, spent, rfl, rfl, exhausted_spent⟩

/-- Ten minutes after the first read, fifty are left. -/
theorem suspended_for_rest_tenMinutes :
    spentPath.Exhausts none [] (.prepared { replies := [spent] }) ∧
      spentPoller.settings.autoDelay = false ∧
      ∃ wait : Span, wait.nanos = 3000000000000 ∧
        SuspendsFor wait (spentWorld ⟨600000000000⟩) (spentPoll ⟨600000000000⟩) := by
  obtain ⟨wait, hleft, -, hsuspends⟩ := suspended_for_rest spentSource readAtEpoch
    exhausts_spentPath ⟨600000000000⟩ ⟨600000000000⟩
  refine ⟨exhausts_spentPath, rfl, wait, ?_, ?_⟩
  · have hnanos : (wait.nanos : Int) = max 0 (3600000000000 - max 0 (600000000000 - 0)) :=
      hleft.nanos
    omega
  · have h := hsuspends spentPoller StatusFeed.backend (spentWorld ⟨600000000000⟩) backgroundPath
      .shared {} (fun _ w => w) 0 rfl rfl
    exact ⟨h.reported, h.state, h.generation, h.timer⟩

/-- An hour after the first read the wait is over before it began: the timer is due at once. -/
theorem spent_after_hour :
    spentPath.Exhausts none [] (.prepared { replies := [spent] }) ∧
      (spentPath.readOver ⟨3600000000000⟩ ⟨3600000000000⟩ none []
          (.prepared { replies := [spent] })).1 = .error (.rateLimited ⟨.zero⟩) ∧
      SuspendsFor .zero (spentWorld ⟨3600000000000⟩) (spentPoll ⟨3600000000000⟩) := by
  have hread := Path.readOver_of_exhausts exhausts_spentPath ⟨3600000000000⟩ ⟨3600000000000⟩
  have hzero : Quota.restOfHour (spentPath.firstRead.getD ⟨3600000000000⟩) ⟨3600000000000⟩ =
      .zero := by
    decide
  rw [hzero] at hread
  have hanswer : (StatusFeed.backend.read backgroundPath none []
      (spentWorld ⟨3600000000000⟩).backend).1.value = .error (.rateLimited ⟨.zero⟩) := by
    show (spentPath.read ⟨3600000000000⟩ none [] (.prepared { replies := [spent] })).1 = _
    rw [Path.read_eq_readOver, hread]
  have h := suspendsFor_of_read (p := spentPoller) rfl hanswer .shared {} (fun _ w => w) 0
  exact ⟨exhausts_spentPath, hread, h.reported, h.state, h.generation, h.timer⟩

end Spent

end FeedPoller
