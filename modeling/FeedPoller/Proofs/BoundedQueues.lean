import FeedPoller.Proofs.Bookkeeping

/-! The history as one bounded queue for each identity, whatever is recorded under whichever of them.
Main statement: what it tells of an identity are the last of the ids that were recorded under it, as many
as there is room for, and the newest of all; a record is told of its own identity alone
(`bounded_queues`). -/

namespace FeedPoller.History

/-- What was recorded one after the other. -/
def recordAll (h : History) (entries : List (Identity × String)) : History :=
  entries.foldl (fun h e => h.record e.1 e.2) h

theorem recordAll_append (h : History) (entries entries' : List (Identity × String)) :
    h.recordAll (entries ++ entries') = (h.recordAll entries).recordAll entries' :=
  List.foldl_append

theorem recordAll_concat (h : History) (entries : List (Identity × String)) (who : Identity)
    (id : String) : h.recordAll (entries ++ [(who, id)]) = (h.recordAll entries).record who id :=
  recordAll_append ..

theorem capacity_recordAll (h : History) (entries : List (Identity × String)) :
    (h.recordAll entries).capacity = h.capacity := by
  induction entries using List.reverseRecOn with
  | nil => rfl
  | append_singleton entries e ih =>
    rw [recordAll_concat]
    exact ih

theorem tracking_recordAll (h : History) (entries : List (Identity × String)) :
    (h.recordAll entries).tracking = h.tracking := by
  induction entries using List.reverseRecOn with
  | nil => rfl
  | append_singleton entries e ih =>
    rw [recordAll_concat]
    exact ih

/-! ## Room -/

/-- There is room for an id at least, and no identity has more ids than there is room for. -/
structure Bounded (h : History) : Prop where
  pos : 1 ≤ h.capacity
  length_le : ∀ who, (h.snapshot who).length ≤ h.capacity

theorem bounded_new (capacity : Nat) (tracking : Bool) : (new capacity tracking).Bounded where
  pos := Nat.le_max_left ..
  length_le who := by
    rw [snapshot_new]
    exact Nat.zero_le _

theorem rtake_of_length_le {n : Nat} {ids : List String} (h : ids.length ≤ n) : ids.rtake n = ids := by
  rw [List.rtake, Nat.sub_eq_zero_of_le h, List.drop_zero]

theorem length_rtake (n : Nat) (ids : List String) : (ids.rtake n).length = min ids.length n := by
  rw [List.rtake, List.length_drop]
  omega

/-- The ids that are kept are the last ones, those from before included. -/
theorem Bounded.snapshot_recordAll {h : History} (hb : h.Bounded)
    (entries : List (Identity × String)) (who : Identity) :
    (h.recordAll entries).snapshot who =
      (h.snapshot who ++ idsUnder who entries).rtake h.capacity := by
  induction entries using List.reverseRecOn with
  | nil =>
    have hnone : h.snapshot who ++ idsUnder who [] = h.snapshot who := List.append_nil _
    rw [hnone, rtake_of_length_le (hb.length_le who)]
    rfl
  | append_singleton entries e ih =>
    obtain ⟨other, id⟩ := e
    rw [recordAll_concat, snapshot_record, capacity_recordAll, idsUnder_append, ← List.append_assoc]
    by_cases hwho : who = other
    · subst hwho
      have hid : idsUnder who [(who, id)] = [id] := by simp [idsUnder]
      rw [if_pos rfl, hid, rtake_concat hb.pos, ih]
    · have hnone : idsUnder who [(other, id)] = [] := by
        refine idsUnder_eq_nil fun e he => ?_
        rw [List.mem_singleton.mp he]
        exact Ne.symm hwho
      rw [if_neg hwho, hnone, List.append_nil, ih]

/-- Room stays room, whatever is recorded. -/
theorem Bounded.recordAll {h : History} (hb : h.Bounded) (entries : List (Identity × String)) :
    (h.recordAll entries).Bounded where
  pos := by
    rw [capacity_recordAll]
    exact hb.pos
  length_le who := by
    rw [hb.snapshot_recordAll, length_rtake, capacity_recordAll]
    exact Nat.min_le_right ..

/-! ## What a history tells -/

/-- A history tells of an identity as a queue of length `n` would that all these ids went through, and
it gives the newest for a cursor when `tracking` is on. -/
structure Tells (h : History) (who : Identity) (n : Nat) (tracking : Bool) (ids : List String) :
    Prop where
  snapshot : h.snapshot who = ids.rtake n
  size : h.size who = min ids.length n
  isEmpty : h.isEmpty who = true ↔ ids = []
  seen : ∀ id, h.seen who id = true ↔ id ∈ ids.rtake n
  cursor : h.cursor who = if tracking then ids.getLast? else none

/-- Two histories tell the same of an identity. -/
structure SameUnder (who : Identity) (h h' : History) : Prop where
  snapshot : h'.snapshot who = h.snapshot who
  size : h'.size who = h.size who
  isEmpty : h'.isEmpty who = h.isEmpty who
  seen : ∀ id, h'.seen who id = h.seen who id
  cursor : h'.cursor who = h.cursor who

theorem getLast?_rtake {n : Nat} (hn : 1 ≤ n) (ids : List String) :
    (ids.rtake n).getLast? = ids.getLast? := by
  rw [List.rtake, List.getLast?_drop]
  split
  · rename_i hlen
    have hnil : ids = [] := List.length_eq_zero_iff.mp (by omega)
    rw [hnil, List.getLast?_nil]
  · rfl

/-- Everything else is told by the snapshot. -/
theorem tells_of_snapshot {h : History} {who : Identity} {n : Nat} {tracking : Bool}
    {ids : List String} (hn : 1 ≤ n) (htracking : h.tracking = tracking)
    (hsnapshot : h.snapshot who = ids.rtake n) : h.Tells who n tracking ids := by
  have hsize : h.size who = min ids.length n := by
    rw [← length_rtake, ← hsnapshot]
    exact (Recent.length_toList _).symm
  refine { snapshot := hsnapshot, size := hsize, isEmpty := ?_, seen := ?_, cursor := ?_ }
  · rw [isEmpty, hsize, beq_iff_eq, ← List.length_eq_zero_iff]
    omega
  · intro id
    rw [seen_iff, hsnapshot]
  · rw [cursor_eq, htracking, hsnapshot, getLast?_rtake hn]

/-- A record is told of its own identity alone. -/
theorem sameUnder_record (h : History) {who other : Identity} (hne : other ≠ who) (id : String) :
    h.SameUnder other (h.record who id) := by
  have hrecent : (h.record who id).recent other = h.recent other := by
    rw [recent_record, if_neg hne]
  refine { snapshot := ?_, size := ?_, isEmpty := ?_, seen := ?_, cursor := ?_ }
  · rw [snapshot, hrecent]
    rfl
  · rw [size, hrecent]
    rfl
  · rw [isEmpty, size, hrecent]
    rfl
  · intro id'
    rw [seen, hrecent]
    rfl
  · rw [cursor, hrecent]
    rfl

/-- Each identity has a queue of its own, of the length asked for or the nearest one that is allowed.
No token of a user makes its identity the shared one. -/
theorem bounded_queues (capacity : Nat) (tracking : Bool) (entries : List (Identity × String)) :
    ((new capacity tracking).recordAll entries).capacity = max 1 (min capacity 100000) ∧
      (∀ who, ((new capacity tracking).recordAll entries).Tells who (max 1 (min capacity 100000))
        tracking (idsUnder who entries)) ∧
      (∀ who other id, other ≠ who → ((new capacity tracking).recordAll entries).SameUnder other
        (((new capacity tracking).recordAll entries).record who id)) ∧
      ∀ token, Identity.user token ≠ .shared := by
  refine ⟨capacity_recordAll .., ?_, ?_, ?_⟩
  · intro who
    refine tells_of_snapshot (Nat.le_max_left ..) (tracking_recordAll ..) ?_
    rw [(bounded_new capacity tracking).snapshot_recordAll, snapshot_new, List.nil_append]
    rfl
  · intro who other id hne
    exact sameUnder_record _ hne id
  · intro token h
    cases h

/-- Two ids are kept for each identity, and a user whose token is empty is not the shared one. -/
example :
    let h := (new 2 true).recordAll
      [(.shared, "a"), (.user "", "b"), (.shared, "b"), (.shared, "b"), (.user "", "c")]
    h.snapshot .shared = ["b", "b"] ∧ h.cursor .shared = some "b" ∧
      h.snapshot (.user "") = ["b", "c"] ∧ h.seen (.user "") "a" = false := by
  decide

end FeedPoller.History
