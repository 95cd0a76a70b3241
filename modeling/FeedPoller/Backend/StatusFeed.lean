import FeedPoller.Feed.Transport
import FeedPoller.World

/-! The status feed as a backend: each path made is a new one, and all of them share what carries their
requests. -/

namespace FeedPoller

/-- The paths by number, and the wall clock, which stands still. -/
structure StatusFeed where
  source : Feed.Source
  transport : Feed.Transport
  moment : Feed.Moment
  paths : Array Feed.Path := #[]

namespace StatusFeed

def create (f : StatusFeed) : Except Failure PathId × StatusFeed :=
  (.ok f.paths.size, { f with paths := f.paths.push { source := f.source } })

/-- A path by its number; one that was never made is as good as new. -/
def path (f : StatusFeed) (id : PathId) : Feed.Path := (f.paths[id]?).getD { source := f.source }

def setPath (f : StatusFeed) (id : PathId) (p : Feed.Path) : StatusFeed :=
  { f with paths := f.paths.setIfInBounds id p }

def openSession (id : PathId) (consumer user : Credentials) (f : StatusFeed) :
    Except SessionFailure Unit × StatusFeed :=
  match (f.path id).openSession consumer user with
  | .error e => (.error e, f)
  | .ok p => (.ok (), f.setPath id p)

def closeSession (id : PathId) (f : StatusFeed) : StatusFeed :=
  f.setPath id (f.path id).closeSession

def read (id : PathId) (cursor : Option String) (params : Json.Fields) (f : StatusFeed) :
    Delayed (Except ReadFailure (List Item)) × StatusFeed :=
  let (result, p, transport) := (f.path id).read f.moment cursor params f.transport
  (⟨result, none⟩, { f.setPath id p with transport })

def update (id : PathId) (payload : Json.Value) (headers : Json.Fields) (f : StatusFeed) :
    Delayed (Except FetchFailure (Option Item)) × StatusFeed :=
  let (result, transport) := (f.path id).update payload headers f.transport
  (⟨result, none⟩, { f with transport })

def backend : Backend StatusFeed where
  create
  authRequired _ f := f.source.kind.authRequired
  openSession
  closeSession
  read
  update

/-! ## Sessions -/

/-- What the session of a path sends, if one is active. -/
def session (f : StatusFeed) (path : PathId) : Option String := (f.path path).session

theorem size_setPath (f : StatusFeed) (id : PathId) (q : Feed.Path) :
    (f.setPath id q).paths.size = f.paths.size := Array.size_setIfInBounds

theorem session_setPath (f : StatusFeed) (id other : PathId) (q : Feed.Path) :
    (f.setPath id q).session other =
      if other = id ∧ id < f.paths.size then q.session else f.session other := by
  simp only [session, path, setPath, Array.getElem?_setIfInBounds]
  by_cases hid : id = other
  · subst hid
    by_cases hlt : id < f.paths.size
    · simp [hlt]
    · simp [hlt]
  · simp [hid, Ne.symm hid]

/-- To put a path in its own place changes nothing. -/
theorem setPath_path (f : StatusFeed) (id : PathId) : f.setPath id (f.path id) = f := by
  by_cases hlt : id < f.paths.size
  · simp [setPath, path, Array.setIfInBounds, hlt]
  · simp [setPath, Array.setIfInBounds, hlt]

theorem session_of_paths {f f' : StatusFeed} (h : f'.paths = f.paths) (path : PathId) :
    f'.session path = f.session path := by
  simp only [session, StatusFeed.path, h]
  cases f.paths[path]? <;> rfl

theorem size_create (f : StatusFeed) : f.create.2.paths.size = f.paths.size + 1 :=
  Array.size_push _

/-- A path that is made is a new one, without a session. -/
theorem session_create (f : StatusFeed) (path : PathId) :
    f.create.2.session path = if path < f.paths.size then f.session path else none := by
  simp only [session, StatusFeed.path, create, Array.getElem?_push]
  by_cases hnew : path = f.paths.size
  · rw [if_pos hnew, if_neg (hnew ▸ Nat.lt_irrefl _)]
    rfl
  · rw [if_neg hnew]
    split
    · rfl
    · rename_i hpath
      rw [Array.getElem?_eq_none (Nat.le_of_not_lt hpath)]
      rfl

theorem size_openSession (id : PathId) (consumer user : Credentials) (f : StatusFeed) :
    (openSession id consumer user f).2.paths.size = f.paths.size := by
  unfold openSession
  split
  · rfl
  · exact size_setPath ..

/-- A path that was read from keeps its session. -/
theorem session_read (id path : PathId) (cursor : Option String) (params : Json.Fields)
    (f : StatusFeed) : (read id cursor params f).2.session path = f.session path := by
  have hread : (read id cursor params f).2.session path =
      (f.setPath id ((f.path id).afterRead f.moment)).session path := by
    simp only [read, Feed.Path.path_read]
    rfl
  rw [hread, session_setPath]
  split
  · rename_i hand
    rw [hand.1]
    rfl
  · rfl

end StatusFeed
end FeedPoller
