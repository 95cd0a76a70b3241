/-! The most recent ids, oldest first, as a queue in two lists: `front` from the oldest on, `back`
from the newest on. `toList` is the queue as one list. -/

namespace FeedPoller

structure Recent where
  front : List String
  back : List String
  size : Nat
  size_eq : size = front.length + back.length := by simp
  deriving Repr

namespace Recent

def empty : Recent := { front := [], back := [], size := 0 }

instance : Inhabited Recent := ⟨empty⟩

/-- Oldest first. -/
def toList (q : Recent) : List String := q.front ++ q.back.reverse

theorem length_toList (q : Recent) : q.toList.length = q.size := by
  simp [toList, q.size_eq]

def contains (q : Recent) (id : String) : Bool := q.front.contains id || q.back.contains id

theorem contains_eq (q : Recent) (id : String) : q.contains id = q.toList.contains id := by
  simp [contains, toList]

/-- The id that was added last. -/
def newest? (q : Recent) : Option String :=
  match q.back with
  | id :: _ => some id
  | [] => q.front.getLast?

theorem newest?_eq (q : Recent) : q.newest? = q.toList.getLast? := by
  unfold newest? toList
  split <;> rename_i h <;> simp [h]

def push (q : Recent) (id : String) : Recent where
  front := q.front
  back := id :: q.back
  size := q.size + 1
  size_eq := by simp [q.size_eq]; omega

@[simp] theorem toList_push (q : Recent) (id : String) : (q.push id).toList = q.toList ++ [id] := by
  simp [push, toList]

/-- Without the oldest id. -/
def dropOldest (q : Recent) : Recent :=
  match h : q.front with
  | _ :: front =>
    { front, back := q.back, size := q.size - 1,
      size_eq := by have := q.size_eq; simp [h] at this; omega }
  | [] =>
    { front := q.back.reverse.tail, back := [], size := q.size - 1,
      size_eq := by have := q.size_eq; simp [h] at this; simp; omega }

@[simp] theorem toList_dropOldest (q : Recent) : q.dropOldest.toList = q.toList.tail := by
  unfold dropOldest toList
  split <;> rename_i h <;> simp [h]

/-- Adds an id; a queue that is full gives up its oldest one first. -/
def record (capacity : Nat) (q : Recent) (id : String) : Recent :=
  if capacity ≤ q.size then q.dropOldest.push id else q.push id

theorem toList_record (capacity : Nat) (q : Recent) (id : String) :
    (q.record capacity id).toList =
      (if capacity ≤ q.toList.length then q.toList.tail else q.toList) ++ [id] := by
  simp only [record, length_toList]
  split <;> simp

end Recent
end FeedPoller
