import FeedPoller.Credentials
import FeedPoller.History.Recent

/-! What was recently handed downstream, apart for each identity. The history is both the filter
for repeated items and the cursor from which a feed is read on. -/

namespace FeedPoller

/-- The most ids that are remembered for one identity. -/
def maxCapacity : Nat := 100000

/-- A cursor is given only when `tracking` is on. -/
structure History where
  capacity : Nat
  tracking : Bool
  records : List (Identity × Recent) := []
  deriving Repr

namespace History

/-- An empty history; the capacity is brought into the range from 1 to `maxCapacity`. -/
def new (capacity : Nat) (tracking : Bool) : History where
  capacity := max 1 (min capacity maxCapacity)
  tracking

/-- The ids remembered for an identity. -/
def recent (h : History) (who : Identity) : Recent :=
  (h.records.lookup who).getD .empty

/-- Puts the ids of an identity in place of those it has. -/
def setRecent (who : Identity) (q : Recent) :
    List (Identity × Recent) → List (Identity × Recent)
  | [] => [(who, q)]
  | (w, r) :: rest => if w = who then (who, q) :: rest else (w, r) :: setRecent who q rest

/-- Remembers an id. Repeated ids are not treated apart. -/
def record (h : History) (who : Identity) (id : String) : History :=
  { h with records := setRecent who ((h.recent who).record h.capacity id) h.records }

/-- Oldest first. -/
def snapshot (h : History) (who : Identity) : List String := (h.recent who).toList

def size (h : History) (who : Identity) : Nat := (h.recent who).size

def isEmpty (h : History) (who : Identity) : Bool := h.size who == 0

def seen (h : History) (who : Identity) (id : String) : Bool := (h.recent who).contains id

/-- The id that was remembered last. -/
def cursor (h : History) (who : Identity) : Option String :=
  if h.tracking then (h.recent who).newest? else none

theorem lookup_setRecent_self (who : Identity) (q : Recent) (rs : List (Identity × Recent)) :
    (setRecent who q rs).lookup who = some q := by
  induction rs with
  | nil => simp [setRecent]
  | cons r rest ih =>
    obtain ⟨w, r⟩ := r
    simp only [setRecent]
    split
    · simp
    · rename_i hne
      have hb : (who == w) = false := by simpa using fun e => hne e.symm
      simpa [List.lookup_cons, hb] using ih

theorem lookup_setRecent_of_ne {who other : Identity} (q : Recent)
    (rs : List (Identity × Recent)) (h : other ≠ who) :
    (setRecent who q rs).lookup other = rs.lookup other := by
  have hb : (other == who) = false := by simpa using h
  induction rs with
  | nil => simp [setRecent, List.lookup_cons, hb]
  | cons r rest ih =>
    obtain ⟨w, r⟩ := r
    simp only [setRecent]
    split
    · rename_i hw
      subst hw
      simp [List.lookup_cons, hb]
    · simp only [List.lookup_cons] at ih ⊢
      split <;> simp_all

/-- Remembering an id changes the ids of its own identity alone. -/
theorem recent_record (h : History) (who other : Identity) (id : String) :
    (h.record who id).recent other =
      if other = who then (h.recent who).record h.capacity id else h.recent other := by
  split
  · rename_i heq
    subst heq
    simp [record, recent, lookup_setRecent_self]
  · rename_i hne
    simp [record, recent, lookup_setRecent_of_ne _ _ hne]

/-- A full record gives up its oldest id first. -/
theorem snapshot_record (h : History) (who other : Identity) (id : String) :
    (h.record who id).snapshot other =
      if other = who then
        (if h.capacity ≤ (h.snapshot who).length then (h.snapshot who).tail else h.snapshot who) ++ [id]
      else h.snapshot other := by
  simp only [snapshot, recent_record]
  split
  · exact Recent.toList_record ..
  · rfl

theorem seen_iff (h : History) (who : Identity) (id : String) :
    h.seen who id = true ↔ id ∈ h.snapshot who := by
  simp [seen, snapshot, Recent.contains_eq]

theorem cursor_eq (h : History) (who : Identity) :
    h.cursor who = if h.tracking then (h.snapshot who).getLast? else none := by
  simp [cursor, snapshot, Recent.newest?_eq]

theorem mem_snapshot_of_mem_cursor {h : History} {who : Identity} {id : String}
    (hid : id ∈ h.cursor who) : id ∈ h.snapshot who := by
  rw [cursor_eq] at hid
  split at hid
  · exact List.mem_of_getLast? hid
  · cases hid

theorem snapshot_new (capacity : Nat) (tracking : Bool) (who : Identity) :
    (new capacity tracking).snapshot who = [] := rfl

end History
end FeedPoller
