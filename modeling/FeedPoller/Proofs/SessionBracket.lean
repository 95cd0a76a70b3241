import FeedPoller.Backend.Script
import FeedPoller.Backend.StatusFeed
import FeedPoller.Proofs.Conduct
import Mathlib.Data.List.Basic

/-! Sessions as a backend sees them. A session is active from when it is opened until it is ended, and
to close a path where none is active is no call. Scripts that have sessions are such backends, and so is
a status feed. Main statement: an operation by itself, whatever becomes of it, has all it asks between an
opening and an end, or has neither (`SessionAware.calls_bracketed`). -/

namespace FeedPoller

variable {σ : Type} {p : Poller} {b : Backend σ}

/-! ## Sessions of a backend -/

/-- What there is to see of sessions: the states in which a poller may find its backend, the paths that
have been made by then, and those on which a session is active. -/
structure Sessions (σ : Type) where
  fits : σ → Prop
  made : PathId → σ → Prop
  isActive : PathId → σ → Bool

namespace Sessions

/-- There are the same paths as before, with the same sessions, that of `but` apart. -/
structure Keeps (v : Sessions σ) (but : Option PathId) (s s' : σ) : Prop where
  fits : v.fits s'
  made : ∀ path, v.made path s' ↔ v.made path s
  active : ∀ path, v.made path s → but ≠ some path → v.isActive path s' = v.isActive path s

/-- There is one more path, if `new` is not one of those before, and it has no session. -/
structure Gains (v : Sessions σ) (new : Option PathId) (s s' : σ) : Prop where
  fits : v.fits s'
  made : ∀ path, v.made path s' ↔ v.made path s ∨ new = some path
  active : ∀ path, v.made path s → v.isActive path s' = v.isActive path s
  fresh : ∀ path, ¬ v.made path s → v.made path s' → v.isActive path s' = false

theorem Keeps.refl {v : Sessions σ} {s : σ} (but : Option PathId) (h : v.fits s) : v.Keeps but s s :=
  ⟨h, fun _ => .rfl, fun _ _ _ => rfl⟩

end Sessions

/-- What a backend has whose sessions are active from when they are opened until they are ended. This is
so of the paths that have been made, among them that of the poller. -/
structure SessionAware (b : Backend σ) extends Sessions σ where
  endSession : PathId → σ → σ
  background : ∀ {s}, fits s → made backgroundPath s
  create : ∀ {s}, fits s → toSessions.Gains (b.create s).1.toOption s (b.create s).2
  openSession : ∀ {path s} consumer user, fits s → made path s →
    toSessions.Keeps (some path) s (b.openSession path consumer user s).2
  opened : ∀ {path consumer user s}, fits s → made path s →
    (b.openSession path consumer user s).1.isOk = true →
      isActive path (b.openSession path consumer user s).2 = true
  refused : ∀ {path consumer user s}, fits s → made path s →
    (b.openSession path consumer user s).1.isOk = false →
      isActive path (b.openSession path consumer user s).2 = isActive path s
  close : ∀ {path s}, fits s → made path s →
    b.closeSession path s = if isActive path s = true then endSession path s else s
  ends : ∀ {path s}, fits s → made path s → toSessions.Keeps (some path) s (endSession path s)
  ended : ∀ {path s}, fits s → made path s → isActive path (endSession path s) = false
  read : ∀ {path s} cursor params, fits s → made path s →
    toSessions.Keeps none s (b.read path cursor params s).2
  update : ∀ {path s} payload headers, fits s → made path s →
    toSessions.Keeps none s (b.update path payload headers s).2

/-! ## Scripts with sessions -/

namespace Script

/-- A script has sessions on all paths, as long as it has any. -/
def seen : Sessions Script where
  fits s := s.sessions = true
  made _ s := s.sessions = true
  isActive path s := s.isActive path

theorem keeps_of {but : Option PathId} {s s' : Script} (h : s.sessions = true)
    (hsessions : s'.sessions = s.sessions)
    (hactive : ∀ path, but ≠ some path → s'.isActive path = s.isActive path) : seen.Keeps but s s' where
  fits := hsessions.trans h
  made _ := by simp [seen, hsessions]
  active path _ := hactive path

def endSession (path : PathId) (s : Script) : Script :=
  { s.log (.closed path) with active := s.active.filter (· != path) }

theorem isActive_openSession {s : Script} (h : s.sessions = true) (path other : PathId)
    (consumer user : Credentials) : (openSession path consumer user s).2.isActive other =
      ((other == path && (openSession path consumer user s).1.isOk) || s.isActive other) := by
  cases hreject : s.rejectSessions with
  | true => simp [openSession, log, isActive, h, hreject, Except.isOk, Except.toBool]
  | false =>
    simp only [openSession, log, isActive, h, hreject, Except.isOk, Except.toBool, Bool.not_true,
      Bool.false_eq_true, if_false, List.contains_cons, Bool.and_true]

theorem sessions_openSession (path : PathId) (consumer user : Credentials) (s : Script) :
    (openSession path consumer user s).2.sessions = s.sessions := by
  unfold openSession
  split
  · rfl
  · dsimp only
    split <;> rfl

theorem seen_create (s : Script) :
    (create s).2.sessions = s.sessions ∧ (create s).2.active = s.active := by
  unfold create
  split
  · dsimp only
    split <;> exact ⟨rfl, rfl⟩
  · exact ⟨rfl, rfl⟩

def sessionAware : SessionAware backend where
  toSessions := seen
  endSession
  background h := h
  create {s} h := by
    obtain ⟨hsessions, hactive⟩ := seen_create s
    refine { fits := hsessions.trans h, made := ?_, active := ?_, fresh := ?_ }
    · intro path
      exact ⟨fun _ => .inl h, fun _ => hsessions.trans h⟩
    · intro path _
      show (create s).2.active.contains path = s.active.contains path
      rw [hactive]
    · exact fun path hnot _ => absurd h hnot
  openSession {path s} consumer user h _ := by
    refine keeps_of h (sessions_openSession ..) fun other hother => ?_
    have hne : (other == path) = false := beq_false_of_ne fun heq => hother (heq ▸ rfl)
    exact (isActive_openSession h ..).trans (by rw [hne]; rfl)
  opened h _ hok := by
    refine (isActive_openSession h ..).trans ?_
    rw [show (openSession _ _ _ _).1.isOk = true from hok]
    simp
  refused h _ hrefused := by
    refine (isActive_openSession h ..).trans ?_
    rw [show (openSession _ _ _ _).1.isOk = false from hrefused, Bool.and_false, Bool.false_or]
    rfl
  close _ _ := rfl
  ends {path s} h _ := by
    refine keeps_of h rfl fun other hother => ?_
    have hne : other ≠ path := fun heq => hother (heq ▸ rfl)
    simp [isActive, endSession, log, hne]
  ended {path s} _ _ := by simp [seen, isActive, endSession]
  read {path s} cursor params h _ := by
    show seen.Keeps none s (read path cursor params s).2
    unfold read
    dsimp only
    split <;> exact keeps_of h rfl fun _ _ => rfl
  update {path s} payload headers h _ := by
    show seen.Keeps none s (update path payload headers s).2
    unfold update
    dsimp only
    split <;> exact keeps_of h rfl fun _ _ => rfl

end Script

/-! ## Status feeds -/

namespace StatusFeed

/-- A feed has sessions on the paths that it has made. -/
def seen : Sessions StatusFeed where
  fits f := backgroundPath < f.paths.size
  made path f := path < f.paths.size
  isActive path f := (f.path path).isActive

theorem isActive_eq (f : StatusFeed) (path : PathId) :
    seen.isActive path f = (f.session path).isSome := rfl

theorem keeps_of {but : Option PathId} {f f' : StatusFeed} (h : seen.fits f)
    (hsize : f'.paths.size = f.paths.size)
    (hsession : ∀ path, but ≠ some path → f'.session path = f.session path) : seen.Keeps but f f' where
  fits := by
    show backgroundPath < f'.paths.size
    rw [hsize]
    exact h
  made path := by simp [seen, hsize]
  active path _ hother := congrArg Option.isSome (hsession path hother)

theorem keeps_setPath {f : StatusFeed} (h : seen.fits f) (id : PathId) (q : Feed.Path) :
    seen.Keeps (some id) f (f.setPath id q) := by
  refine keeps_of h (size_setPath ..) fun other hother => ?_
  rw [session_setPath, if_neg]
  rintro ⟨rfl, -⟩
  exact hother rfl

/-- A session is opened, or else nothing has changed. -/
theorem openSession_cases (path : PathId) (consumer user : Credentials) (f : StatusFeed) :
    (∃ e, openSession path consumer user f = (.error e, f)) ∨
      ∃ q, q.isActive = true ∧ openSession path consumer user f = (.ok (), f.setPath path q) := by
  unfold openSession
  cases hopen : (f.path path).openSession consumer user with
  | error e => exact .inl ⟨e, rfl⟩
  | ok q =>
    obtain ⟨-, -, rfl⟩ := Feed.Path.openSession_eq_ok_iff.mp hopen
    exact .inr ⟨_, rfl, rfl⟩

def sessionAware : SessionAware backend where
  toSessions := seen
  endSession := closeSession
  background h := h
  create {f} h := by
    refine { fits := ?_, made := ?_, active := ?_, fresh := ?_ }
    · show backgroundPath < f.create.2.paths.size
      rw [size_create]
      exact Nat.lt_succ_of_lt h
    · intro path
      show path < f.create.2.paths.size ↔ path < f.paths.size ∨ some f.paths.size = some path
      rw [size_create, Nat.lt_succ_iff_lt_or_eq, Option.some.injEq]
      exact or_congr_right eq_comm
    · intro path hpath
      exact congrArg Option.isSome ((session_create f path).trans (if_pos hpath))
    · intro path hnot _
      exact congrArg Option.isSome ((session_create f path).trans (if_neg hnot))
  openSession {path f} consumer user h _ := by
    show seen.Keeps _ f (openSession path consumer user f).2
    obtain ⟨e, hopen⟩ | ⟨q, -, hopen⟩ := openSession_cases path consumer user f
    · rw [hopen]
      exact .refl _ h
    · rw [hopen]
      exact keeps_setPath h ..
  opened {path consumer user f} _ hpath hok := by
    change (openSession path consumer user f).1.isOk = true at hok
    show seen.isActive path (openSession path consumer user f).2 = true
    obtain ⟨e, hopen⟩ | ⟨q, hactive, hopen⟩ := openSession_cases path consumer user f
    · rw [hopen] at hok
      cases hok
    · rw [hopen, isActive_eq, session_setPath, if_pos ⟨rfl, hpath⟩]
      exact hactive
  refused {path consumer user f} _ _ hrefused := by
    change (openSession path consumer user f).1.isOk = false at hrefused
    show seen.isActive path (openSession path consumer user f).2 = seen.isActive path f
    obtain ⟨e, hopen⟩ | ⟨q, -, hopen⟩ := openSession_cases path consumer user f
    · rw [hopen]
    · rw [hopen] at hrefused
      cases hrefused
  close {path f} _ _ := by
    show closeSession path f = if (f.path path).isActive = true then closeSession path f else f
    split
    · rfl
    · rename_i hinactive
      -- without a session the path is what it would be made
      have hnone : (f.path path).session = none := by simpa [Feed.Path.isActive] using hinactive
      have hsame : (f.path path).closeSession = f.path path := by
        rw [Feed.Path.closeSession, ← hnone]
      rw [closeSession, hsame, setPath_path]
  ends h _ := keeps_setPath h ..
  ended {path f} _ hpath := by
    show seen.isActive path (f.setPath path (f.path path).closeSession) = false
    rw [isActive_eq, session_setPath, if_pos ⟨rfl, hpath⟩]
    rfl
  read cursor params h _ := keeps_of h (size_setPath ..) fun other _ => session_read ..
  update payload headers h _ := keeps_of h rfl fun other _ => session_of_paths rfl other

end StatusFeed

/-! ## Single actions -/

namespace SessionAware

variable {a : SessionAware b}

/-- The call that reaches the backend, if an action is one: a session is ended only where one is
active. -/
def reached (a : SessionAware b) (e : Entry σ) : Option Call :=
  match e with
  | ⟨_, _, w, .closeSession path, _⟩ =>
    if a.isActive path w.backend = true then some (.closed path) else none
  | _ => e.call

/-- The calls that reached the backend, the first one first. -/
def calls (a : SessionAware b) (log : List (Entry σ)) : List Call :=
  (log.filterMap a.reached).reverse

section Single

variable (a) {path : PathId} {s : σ} (hfits : a.fits s) (hmade : a.made path s)

include hfits hmade

theorem isActive_closeSession : a.isActive path (b.closeSession path s) = false := by
  rw [a.close hfits hmade]
  by_cases h : a.isActive path s = true
  · rw [if_pos h, a.ended hfits hmade]
  · rw [if_neg h]
    exact eq_false_of_ne_true h

theorem keeps_closeSession : a.Keeps (some path) s (b.closeSession path s) := by
  rw [a.close hfits hmade]
  split
  · exact a.ends hfits hmade
  · exact .refl _ hfits

end Single

section Perform

variable (a) (i : Nat) (op : Operation) {w : World σ} {action : Action} (hfits : a.fits w.backend)
  (haction : action ≠ .create)
  (hcall : ∀ call, (⟨i, op, w, action, (w.perform p b action).1.value⟩ : Entry σ).call = some call →
    a.made call.path w.backend)

include hfits haction hcall

/-- Unless it makes one, an action leaves all paths as they are but the one that it opens or closes. -/
theorem keeps_perform : ∃ but, a.Keeps but w.backend (w.perform p b action).2.backend := by
  cases action with
  | create => exact absurd rfl haction
  | openSession path consumer user => exact ⟨_, a.openSession consumer user hfits (hcall _ rfl)⟩
  | closeSession path => exact ⟨_, a.keeps_closeSession hfits (hcall _ rfl)⟩
  | read path cursor params => exact ⟨_, a.read cursor params hfits (hcall _ rfl)⟩
  | update path payload headers => exact ⟨_, a.update payload headers hfits (hcall _ rfl)⟩
  | _ => exact ⟨none, .refl _ hfits⟩

/-- Whether a session is active after an action can be told from the call that it was. -/
theorem isActive_perform {path : PathId} (hmade : a.made path w.backend)
    {before : Option (Credentials × Credentials)} (h : a.isActive path w.backend = before.isSome) :
    a.isActive path (w.perform p b action).2.backend =
      ((⟨i, op, w, action, (w.perform p b action).1.value⟩ : Entry σ).call.elim before
        (Call.session path before)).isSome := by
  cases action with
  | create => exact absurd rfl haction
  | read path' cursor params =>
    exact ((a.read cursor params hfits (hcall _ rfl)).active path hmade nofun).trans h
  | update path' payload headers =>
    exact ((a.update payload headers hfits (hcall _ rfl)).active path hmade nofun).trans h
  | openSession path' consumer user =>
    simp only [World.perform, Entry.call, Option.elim_some, Call.session]
    by_cases hpath : path' = path
    · subst hpath
      by_cases hok : (b.openSession path' consumer user w.backend).1.isOk = true
      · rw [if_pos ⟨rfl, hok⟩, a.opened hfits hmade hok]
        rfl
      · rw [if_neg (fun hand => hok hand.2), a.refused hfits hmade (eq_false_of_ne_true hok), h]
    · have hkeeps : a.Keeps (some path') w.backend (b.openSession path' consumer user w.backend).2 :=
        a.openSession consumer user hfits (hcall _ rfl)
      rw [if_neg (fun hand => hpath hand.1), hkeeps.active path hmade (by simpa using hpath), h]
  | closeSession path' =>
    simp only [World.perform, Entry.call, Option.elim_some, Call.session]
    by_cases hpath : path' = path
    · subst hpath
      rw [if_pos rfl, a.isActive_closeSession hfits hmade]
      rfl
    · have hkeeps : a.Keeps (some path') w.backend (b.closeSession path' w.backend) :=
        a.keeps_closeSession hfits (hcall _ rfl)
      rw [if_neg hpath, hkeeps.active path hmade (by simpa using hpath), h]
  | _ => exact h

end Perform

/-! ## In every course -/

/-- What a log tells of the state that it led to from `s`: the paths that it names are there, and of
those that had no session at the start, one is active where the calls say so. -/
structure Tells (a : SessionAware b) (s : σ) (log : List (Entry σ)) (s' : σ) : Prop where
  fits : a.fits s'
  made : ∀ e ∈ log, ∀ path, e.made = some path → a.made path s'
  called : ∀ call ∈ FeedPoller.calls log, a.made call.path s'
  active : ∀ path, a.made path s' → (a.made path s → a.isActive path s = false) →
    a.isActive path s' = (sessionOf path (FeedPoller.calls log)).isSome

namespace Tells

variable {s s' s'' : σ} {log : List (Entry σ)}

theorem start (hfits : a.fits s) : a.Tells s [] s where
  fits := hfits
  made := by simp
  called := by simp [FeedPoller.calls]
  active _ hmade hquiet := hquiet hmade

/-- Whatever path an operation uses has been made. -/
theorem made_of_uses (h : a.Tells s log s') {op : Operation} {past : List (Entry σ)}
    (hpast : past ⊆ log) {path : PathId} (huses : op.Uses past path) : a.made path s' := by
  cases op with
  | cycle | tick =>
    obtain rfl : path = backgroundPath := huses
    exact a.background h.fits
  | command =>
    obtain ⟨e, he, hmade⟩ := huses
    exact h.made e (hpast he) path hmade

/-- A change that begins and ends no session makes no difference. -/
theorem of_keeps (h : a.Tells s log s') (hkeeps : a.Keeps none s' s'') : a.Tells s log s'' where
  fits := hkeeps.fits
  made e he path hmade := (hkeeps.made path).mpr (h.made e he path hmade)
  called call hcall := (hkeeps.made _).mpr (h.called call hcall)
  active path hmade hquiet := by
    have hbefore := (hkeeps.made path).mp hmade
    exact (hkeeps.active path hbefore nofun).trans (h.active path hbefore hquiet)

variable {w : World σ}

theorem create (h : a.Tells s log w.backend) (i : Nat) (op : Operation) :
    a.Tells s (⟨i, op, w, .create, (w.perform p b .create).1.value⟩ :: log)
      (w.perform p b .create).2.backend := by
  have hgains := a.create h.fits
  have hlasts : ∀ {path}, a.made path w.backend → a.made path (b.create w.backend).2 :=
    fun hmade => (hgains.made _).mpr (.inl hmade)
  refine { fits := hgains.fits, made := ?_, called := ?_, active := ?_ }
  · intro e he path hmade
    rcases List.mem_cons.mp he with rfl | he
    · have hreply : (b.create w.backend).1 = .ok path := by
        cases hr : (b.create w.backend).1 with
        | error e => simp [Entry.made, World.perform, hr] at hmade
        | ok path' => simpa [Entry.made, World.perform, hr] using hmade
      exact (hgains.made path).mpr (.inr (by rw [hreply]; rfl))
    · exact hlasts (h.made e he path hmade)
  · exact fun call hcall => hlasts (h.called call hcall)
  · intro path hmade hquiet
    by_cases hold : a.made path w.backend
    · exact (hgains.active path hold).trans (h.active path hold hquiet)
    · -- no call was made on a path that was not there
      have hnone : sessionOf path (FeedPoller.calls log) = none := by
        refine sessionOf_of_forall_ne ?_
        rintro call hcall rfl
        exact hold (h.called call hcall)
      refine (hgains.fresh path hold hmade).trans ?_
      change false = (sessionOf path (FeedPoller.calls log)).isSome
      rw [hnone]
      rfl

theorem perform (h : a.Tells s log w.backend) (i : Nat) (op : Operation) (action : Action)
    (hcall : ∀ call, (⟨i, op, w, action, (w.perform p b action).1.value⟩ : Entry σ).call = some call →
      a.made call.path w.backend) :
    a.Tells s (⟨i, op, w, action, (w.perform p b action).1.value⟩ :: log)
      (w.perform p b action).2.backend := by
  by_cases haction : action = .create
  · subst haction
    exact h.create i op
  obtain ⟨but, hkeeps⟩ := a.keeps_perform i op h.fits haction hcall
  refine { fits := hkeeps.fits, made := ?_, called := ?_, active := ?_ }
  · intro e he path hmade
    rcases List.mem_cons.mp he with rfl | he
    · rw [Entry.made_of_ne haction] at hmade
      cases hmade
    · exact (hkeeps.made path).mpr (h.made e he path hmade)
  · intro call hmem
    rw [calls_cons] at hmem
    refine (hkeeps.made _).mpr ?_
    rcases List.mem_append.mp hmem with hmem | hmem
    · exact h.called call hmem
    · exact hcall call (by simpa using hmem)
  · intro path hmade hquiet
    have hold := (hkeeps.made path).mp hmade
    refine (a.isActive_perform i op h.fits haction hcall hold (h.active path hold hquiet)).trans ?_
    rw [sessionOf_calls_cons]

end Tells

/-- The log tells of the state now, and told of it before whatever was done. -/
structure Tracks (a : SessionAware b) (s : σ) (c : Chronicle σ) : Prop where
  now : a.Tells s c.log c.world.backend
  before : EachGiven (fun past e => a.Tells s past e.world.backend) c.log

/-- It does so as long as nobody else makes paths, or begins or ends sessions. -/
theorem tracks_of_later {R : Rules p b} (hmoves : ∀ s s', R.moves s s' → a.Keeps none s s')
    {w : World σ} (hfits : a.fits w.backend) {c : Course σ} (hl : R.Later { world := w } c) :
    a.Tracks w.backend c.toChronicle := by
  induction hl with
  | refl => exact ⟨.start hfits, trivial⟩
  | @tail c c' hl hs ih =>
    obtain ⟨hwell, -, -⟩ := conduct_of_later (hl.tail hs)
    cases hs with
    | begin => exact ih
    | @act i op action next hi =>
      refine ⟨ih.now.perform i op action fun call hcall => ?_, ih.now, ih.before⟩
      exact ih.now.made_of_uses (c.own_subset i) (hwell.1.uses hcall)
    | meanwhile hw =>
      refine ⟨?_, ih.before⟩
      obtain ⟨-, -, hs | hs⟩ := hw.apart
      · exact hs ▸ ih.now
      · exact ih.now.of_keeps (hmoves _ _ hs)

end SessionAware

/-! ## An operation by itself -/

/-- One operation alone, while the backend may change by itself. -/
def alone (p : Poller) (b : Backend σ) (moves : σ → σ → Prop) (op : Operation) : Rules p b where
  moves
  begins c op' := c.tasks = [] ∧ op' = op

/-- All that was done then was done by this operation. -/
theorem entry_of_alone {moves : σ → σ → Prop} {op : Operation} {outcome : Outcome} {w : World σ}
    {c : Course σ} (hl : (alone p b moves op).Later { world := w } c)
    (hdone : c.tasks = [⟨op, .done outcome⟩]) {e : Entry σ} (he : e ∈ c.log) :
    e.task = 0 ∧ e.op = op := by
  obtain ⟨t, ht, hop⟩ := hl.signed e he
  rw [hdone, List.getElem?_singleton] at ht
  split at ht
  · rename_i htask
    obtain rfl := Option.some.inj ht
    exact ⟨htask, hop.symm⟩
  · cases ht

/-- So its own past is the whole past. -/
theorem filter_of_alone {moves : σ → σ → Prop} {op : Operation} {outcome : Outcome} {w : World σ}
    {c : Course σ} (hl : (alone p b moves op).Later { world := w } c)
    (hdone : c.tasks = [⟨op, .done outcome⟩]) {log : List (Entry σ)} (hlog : log ⊆ c.log) :
    log.filter (·.task = 0) = log :=
  List.filter_eq_self.mpr fun _ he => decide_eq_true (entry_of_alone hl hdone (hlog he)).1

theorem settled_of_alone {moves : σ → σ → Prop} {op : Operation} {outcome : Outcome} {w : World σ}
    {c : Course σ} (hl : (alone p b moves op).Later { world := w } c)
    (hdone : c.tasks = [⟨op, .done outcome⟩]) : Settled p op c.log := by
  obtain ⟨-, -, hsettled⟩ := conduct_of_later hl
  have hlast := hsettled 0 ⟨op, .done outcome⟩ (by rw [hdone]; rfl) ⟨outcome, rfl⟩
  rwa [Chronicle.own, filter_of_alone hl hdone (List.Subset.refl _)] at hlast

/-- The calls of an operation: none if it is given up; else a session that is refused, or all its reads
and updates between an opening and an end; without both halves of the credentials, these alone. At the
end no session is active. -/
theorem SessionAware.calls_bracketed (a : SessionAware b) {op : Operation} {outcome : Outcome}
    {w : World σ} {c : Course σ} (hfits : a.fits w.backend)
    (hl : (alone p b (a.Keeps none) op).Later { world := w } c)
    (hdone : c.tasks = [⟨op, .done outcome⟩])
    (hquiet : ∀ path, op.Uses c.log path → a.made path w.backend →
      a.isActive path w.backend = false) :
    (op.Forgoes p c.log → a.calls c.log = []) ∧
      (¬ op.Forgoes p c.log →
        ∃ path, op.Uses c.log path ∧ Bracketed (op.credentials p) path (a.calls c.log)) ∧
      ∀ path, op.Uses c.log path → a.isActive path c.world.backend = false := by
  obtain ⟨hconduct, -, -⟩ := conduct_of_later hl
  have htracks : a.Tracks w.backend c.toChronicle := tracks_of_later (fun _ _ hmove => hmove) hfits hl
  -- what an operation closes has an active session, so every close is an end
  have hcalls : a.calls c.log = FeedPoller.calls c.log := by
    refine congrArg List.reverse (List.filterMap_congr ?_)
    rintro ⟨i, op', w', action, reply⟩ he
    cases action with
    | closeSession path =>
      obtain ⟨past, hsuffix, hclose, htells⟩ := (hconduct.and htracks.before).of_mem he
      obtain ⟨rfl, rfl⟩ := entry_of_alone hl hdone he
      rw [filter_of_alone hl hdone hsuffix.subset] at hclose
      obtain ⟨huses, hopen⟩ := hclose
      have hmade := htells.made_of_uses (List.Subset.refl past) huses
      have hactive := htells.active path hmade (hquiet path (huses.mono hsuffix.subset))
      exact if_pos (hactive.trans hopen)
    | _ => rfl
  have hend := settled_of_alone hl hdone
  rw [hcalls]
  refine ⟨hend.forgone, hend.bracketed, ?_⟩
  intro path huses
  have hmade := htracks.now.made_of_uses (List.Subset.refl _) huses
  rw [htracks.now.active path hmade (hquiet path huses), hend.session]
  rfl

namespace Script

/-- Polls for one user of an application. -/
def forUser : Poller where
  settings := {}
  background := { consumer := some ⟨"app", "s"⟩, user := some ⟨"ann", "t"⟩ }

/-- Asks for a poll and an update. -/
def pollAndPost : Command := { poll := some true, payload := some .null }

/-- An item can be read, but whatever is delivered is refused downstream. -/
def refusing : World Script where
  backend := { sessions := true, fresh := true, created := 1, reads := [⟨.ok [⟨"a", .null, []⟩], none⟩] }
  history := .new 100 true
  sink := { rule := .closed }

/-- The command fails at its first item, before it comes to the update. -/
def refusedCommand : Course Script :=
  (List.replicate 6 0).foldl (Course.act forUser backend)
    (({ world := refusing } : Course Script).begin forUser (.command pollAndPost))

theorem refusedCommand_calls_bracketed :
    sessionAware.fits refusing.backend ∧
      (alone forUser backend (sessionAware.Keeps none) (.command pollAndPost)).Later
        { world := refusing } refusedCommand ∧
      (∀ path, (Operation.command pollAndPost).Uses refusedCommand.log path →
        sessionAware.made path refusing.backend → sessionAware.isActive path refusing.backend = false) ∧
      sessionAware.calls refusedCommand.log =
        [.opened 1 ⟨"app", "s"⟩ ⟨"ann", "t"⟩ true, .asked 1, .closed 1] ∧
      (∃ path, (Operation.command pollAndPost).Uses refusedCommand.log path ∧
        Bracketed forUser.background path (sessionAware.calls refusedCommand.log)) ∧
      sessionAware.isActive 1 refusedCommand.world.backend = false := by
  have hl : (alone forUser backend (sessionAware.Keeps none) (.command pollAndPost)).Later
      { world := refusing } refusedCommand := by
    refine Rules.Later.turns (Rules.Later.begin .refl ?_) _
    exact ⟨rfl, rfl⟩
  have huses : (Operation.command pollAndPost).Uses refusedCommand.log 1 :=
    ⟨_, List.get_mem refusedCommand.log ⟨5, by decide⟩, rfl⟩
  have hkept : ¬ (Operation.command pollAndPost).Forgoes forUser refusedCommand.log := by
    rintro (hmismatched | hsuspended | hnone)
    · cases hmismatched
    · revert hsuspended
      decide
    · exact hnone 1 huses
  obtain ⟨-, hbracketed, hinactive⟩ :=
    SessionAware.calls_bracketed sessionAware (w := refusing) rfl hl rfl fun _ _ _ => rfl
  exact ⟨rfl, hl, fun _ _ _ => rfl, rfl, hbracketed hkept, hinactive 1 huses⟩

end Script

end FeedPoller
