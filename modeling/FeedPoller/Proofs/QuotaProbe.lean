import FeedPoller.Feed.Quota
import FeedPoller.Proofs.Numerals

/-! What a refused read says about the quota, from the headers as they were sent and in words of 64
bits. Main statement: for any headers and at any moment of the calendar there is a rate limit just
when no requests are left, and it lasts until the reset that was named, to the second, or else for
what is left of the hour that began with the first read (`probe_meaning`). -/

namespace FeedPoller

/-! ## Headers -/

namespace Http.Reply

/-- A reply with headers that were sent one after the other. -/
def ofHeaders (status : Nat) (body : String) (headers : List (String × String)) : Reply :=
  headers.foldl (fun r h => r.withHeader h.1 h.2) { status, body }

/-- The value that was sent last under a name, in whatever letter case the name was. -/
def Sends (headers : List (String × String)) (name value : String) : Prop :=
  ∃ earlier sent later, headers = earlier ++ (sent, value) :: later ∧
    Text.lower sent = Text.lower name ∧ ∀ h ∈ later, Text.lower h.1 ≠ Text.lower name

theorem sends_concat {headers : List (String × String)} {h : String × String}
    {name value : String} :
    Sends (headers ++ [h]) name value ↔
      if Text.lower name = Text.lower h.1 then h.2 = value else Sends headers name value := by
  split
  · rename_i hname
    constructor
    · rintro ⟨earlier, sent, later, heq, hsent, hlater⟩
      cases later using List.reverseRecOn with
      | nil =>
        obtain ⟨-, hlast⟩ := List.append_inj' heq rfl
        exact congrArg Prod.snd (List.cons.inj hlast).1
      | append_singleton later h' =>
        rw [← List.cons_append, ← List.append_assoc] at heq
        obtain ⟨-, hlast⟩ := List.append_inj' heq rfl
        obtain rfl := (List.cons.inj hlast).1
        exact absurd hname.symm (hlater h (List.mem_append_right _ (List.mem_singleton_self _)))
    · rintro rfl
      exact ⟨headers, h.1, [], rfl, hname.symm, by simp⟩
  · rename_i hname
    constructor
    · rintro ⟨earlier, sent, later, heq, hsent, hlater⟩
      cases later using List.reverseRecOn with
      | nil =>
        obtain ⟨-, hlast⟩ := List.append_inj' heq rfl
        rw [(List.cons.inj hlast).1] at hname
        exact absurd hsent.symm hname
      | append_singleton later h' =>
        rw [← List.cons_append, ← List.append_assoc] at heq
        obtain ⟨rfl, -⟩ := List.append_inj' heq rfl
        exact ⟨earlier, sent, later, rfl, hsent, fun h'' hh =>
          hlater h'' (List.mem_append_left _ hh)⟩
    · rintro ⟨earlier, sent, later, rfl, hsent, hlater⟩
      refine ⟨earlier, sent, later ++ [h], by simp, hsent, ?_⟩
      intro h' hh
      rcases List.mem_append.mp hh with hh | hh
      · exact hlater h' hh
      · rw [List.mem_singleton.mp hh]
        exact Ne.symm hname

theorem header?_ofHeaders_iff {status : Nat} {body : String} {headers : List (String × String)}
    {name value : String} :
    (ofHeaders status body headers).header? name = some value ↔ Sends headers name value := by
  induction headers using List.reverseRecOn with
  | nil =>
    constructor
    · intro h
      cases h
    · rintro ⟨earlier, sent, later, heq, -⟩
      cases earlier <;> cases heq
  | append_singleton headers h ih =>
    rw [sends_concat, ← ih, ofHeaders, List.foldl_append, ← ofHeaders]
    show ((ofHeaders status body headers).withHeader h.1 h.2).header? name = some value ↔ _
    rw [header?, withHeader]
    split
    · rename_i hname
      rw [hname, Named.get?_insert_self, Option.some.injEq]
    · rename_i hname
      rw [Named.get?_insert_of_ne _ _ hname]
      rfl

end Http.Reply

namespace Feed

/-! ## The calendar -/

/-- From the beginning of the year -262143 to the end of the year 262142. -/
def Moment.OnCalendar (t : Moment) : Prop :=
  -8334601228800 * 1000000000 ≤ t.nanos ∧ t.nanos < 8210266876800 * 1000000000

theorem Moment.secs_le (t : Moment) : t.secs * 1000000000 ≤ t.nanos := by
  rw [secs, Int.fdiv_eq_ediv_of_nonneg _ (by decide)]
  omega

theorem Moment.lt_secs_add_one (t : Moment) : t.nanos < (t.secs + 1) * 1000000000 := by
  rw [secs, Int.fdiv_eq_ediv_of_nonneg _ (by decide)]
  omega

theorem Moment.OnCalendar.secs {t : Moment} (h : t.OnCalendar) : Text.IsInt64 t.secs := by
  have hle := t.secs_le
  have hlt := t.lt_secs_add_one
  unfold OnCalendar at h
  unfold Text.IsInt64
  omega

namespace Quota

/-! ## Words -/

/-- The difference of two words, or the nearest word when it does not fit in one. -/
def saturatingSub (a b : Int64) : Int64 :=
  if BitVec.ssubOverflow a.toBitVec b.toBitVec then
    if a < 0 then Int64.minValue else Int64.maxValue
  else a - b

/-- The seconds from one second to another, none if that is past. -/
def wordsUntil (reset now : Int64) : UInt64 :=
  if saturatingSub reset now < 0 then 0 else (saturatingSub reset now).toUInt64

theorem ssubOverflow_iff (a b : Int64) :
    BitVec.ssubOverflow a.toBitVec b.toBitVec = true ↔ ¬ Text.IsInt64 (a.toInt - b.toInt) := by
  rw [BitVec.ssubOverflow, Int64.toInt_toBitVec, Int64.toInt_toBitVec, Bool.or_eq_true,
    decide_eq_true_eq, decide_eq_true_eq, Text.IsInt64]
  norm_num
  omega

theorem toInt_saturatingSub (a b : Int64) :
    (saturatingSub a b).toInt =
      max (-0x8000000000000000) (min 0x7fffffffffffffff (a.toInt - b.toInt)) := by
  have ha := a.toInt_lt
  have ha' := a.le_toInt
  have hb := b.toInt_lt
  have hb' := b.le_toInt
  have hzero : (0 : Int64).toInt = 0 := rfl
  unfold saturatingSub
  split
  · rename_i hover
    rw [ssubOverflow_iff, Text.IsInt64] at hover
    split
    · rename_i hneg
      rw [Int64.lt_iff_toInt_lt, hzero] at hneg
      rw [Int64.toInt_minValue]
      omega
    · rename_i hneg
      rw [Int64.lt_iff_toInt_lt, hzero] at hneg
      rw [Int64.toInt_maxValue]
      omega
  · rename_i hfits
    rw [ssubOverflow_iff, Classical.not_not, Text.IsInt64] at hfits
    rw [Int64.toInt_sub, Int.bmod_eq_of_le (by norm_num; omega) (by norm_num; omega)]
    omega

theorem toNat_wordsUntil (reset now : Int64) :
    ((wordsUntil reset now).toNat : Int) =
      max 0 (min 0x7fffffffffffffff (reset.toInt - now.toInt)) := by
  have hsub := toInt_saturatingSub reset now
  have hzero : (0 : Int64).toInt = 0 := rfl
  unfold wordsUntil
  split
  · rename_i hneg
    rw [Int64.lt_iff_toInt_lt, hzero] at hneg
    have hnone : (0 : UInt64).toNat = 0 := rfl
    rw [hnone]
    omega
  · rename_i hneg
    have hle : 0 ≤ saturatingSub reset now := Int64.not_lt.mp hneg
    rw [Int64.lt_iff_toInt_lt, hzero] at hneg
    rw [Int64.toNat_toUInt64_of_le hle, Int64.toNatClampNeg, hsub]
    omega

/-! ## What is waited for -/

/-- Some reset was named: the wait is the difference in whole seconds, none if it is past, and no
more than 63 bits of them. Counted in words it is the same. -/
structure UntilReset (reset : Int) (now : Moment) (wait : Span) : Prop where
  nanos : (wait.nanos : Int) =
    min 0x7fffffffffffffff (max 0 (reset - now.secs)) * 1000000000
  inWords : (Int64.ofInt reset).toInt = reset ∧ (Int64.ofInt now.secs).toInt = now.secs ∧
    wait.nanos = (wordsUntil (.ofInt reset) (.ofInt now.secs)).toNat * 1000000000
  /-- The wait is not over before the reset. -/
  notBefore : reset - now.secs ≤ 0x7fffffffffffffff →
    reset * 1000000000 ≤ now.nanos + wait.nanos
  /-- It is over in the second of the reset. -/
  soonAfter : reset - now.secs ≤ 0x7fffffffffffffff → now.secs < reset →
    now.nanos + wait.nanos < (reset + 1) * 1000000000

/-- No reset was named: the wait is what is left of the hour that began with the first read. -/
structure RestOfHour (first now : Moment) (wait : Span) : Prop where
  nanos : (wait.nanos : Int) = max 0 (3600000000000 - max 0 (now.nanos - first.nanos))
  /-- If the clock went back, the hour is yet to begin. -/
  whole : now.nanos < first.nanos → wait.nanos = 3600000000000
  /-- The time that has passed, in either direction, is counted in milliseconds of 64 bits. -/
  counted : (now.nanos - first.nanos).natAbs ≤ 0x7fffffffffffffff * 1000000

theorem untilReset_spec {reset : Int} (hreset : Text.IsInt64 reset) {now : Moment}
    (hnow : now.OnCalendar) : UntilReset reset now (untilReset reset now) := by
  have hle := now.secs_le
  have hlt := now.lt_secs_add_one
  have hsecs := hnow.secs
  obtain ⟨hlow, hhigh⟩ := hreset
  have hbound : (min (reset - now.secs) 0x7fffffffffffffff).toNat * 1000000000 < Span.limit := by
    unfold Span.limit
    omega
  have hnanos : (untilReset reset now).nanos =
      (min (reset - now.secs) 0x7fffffffffffffff).toNat * 1000000000 := Span.nanos_ofNanos hbound
  have hwords : (Int64.ofInt reset).toInt = reset := Int64.toInt_ofInt_of_le hlow hhigh
  have hwords' : (Int64.ofInt now.secs).toInt = now.secs :=
    Int64.toInt_ofInt_of_le hsecs.1 hsecs.2
  have hcount : (wordsUntil (.ofInt reset) (.ofInt now.secs)).toNat =
      (min (reset - now.secs) 0x7fffffffffffffff).toNat := by
    have hcount := toNat_wordsUntil (.ofInt reset) (.ofInt now.secs)
    rw [hwords, hwords'] at hcount
    generalize (wordsUntil (.ofInt reset) (.ofInt now.secs)).toNat = count at hcount ⊢
    omega
  refine ⟨?_, ⟨hwords, hwords', ?_⟩, ?_, ?_⟩
  · omega
  · rw [hnanos, hcount]
  · intro _
    omega
  · intro _ _
    omega

/-- What is left of the hour. -/
def restOfHour (first now : Moment) : Span := Backoff.renewalWindow.minus (now.since first)

/-- It is no matter that long spans are cut off: an hour is shorter. -/
theorem nanos_restOfHour (first now : Moment) : ((restOfHour first now).nanos : Int) =
    max 0 (3600000000000 - max 0 (now.nanos - first.nanos)) := by
  have hhour : Backoff.renewalWindow.nanos = 3600000000000 := rfl
  have hlimit : Span.limit = 0x10000000000000000 * 1000000000 := rfl
  have hsince : (now.since first).nanos =
      min (now.nanos - first.nanos).toNat (Span.limit - 1) := rfl
  rw [restOfHour, Span.nanos_minus, hhour]
  omega

theorem restOfHour_spec {first now : Moment} (hfirst : first.OnCalendar) (hnow : now.OnCalendar) :
    RestOfHour first now (restOfHour first now) := by
  unfold Moment.OnCalendar at hfirst hnow
  have hnanos := nanos_restOfHour first now
  refine ⟨hnanos, ?_, ?_⟩
  · intro hback
    omega
  · omega

/-! ## The probe -/

theorem lower_remainingHeader : Text.lower remainingHeader = remainingHeader :=
  Text.lower_eq rfl

theorem lower_resetHeader : Text.lower resetHeader = resetHeader :=
  Text.lower_eq rfl

/-- What a header says, as an integer of 64 signed bits. -/
def Tells (headers : List (String × String)) (name : String) (n : Int) : Prop :=
  ∃ value, Http.Reply.Sends headers name value ∧ Text.IsNumber value.toList n

theorem number?_ofHeaders_iff {status : Nat} {body : String} {headers : List (String × String)}
    {name : String} {n : Int} :
    number? (.ofHeaders status body headers) name = some n ↔ Tells headers name n := by
  rw [number?, Option.bind_eq_some_iff, Tells]
  simp only [Http.Reply.header?_ofHeaders_iff, Text.int64?_trimBy_iff]

theorem number?_eq_none {status : Nat} {body : String} {headers : List (String × String)}
    {name : String} (h : ∀ n, ¬ Tells headers name n) :
    number? (.ofHeaders status body headers) name = none := by
  rw [Option.eq_none_iff_forall_ne_some]
  intro n hn
  exact h n (number?_ofHeaders_iff.mp hn)

/-- A reply tells of a rate limit just when it says that no requests are left. The wait goes by the
reset that it names, and else by the first read. -/
theorem probe_meaning {first now : Moment} (hfirst : first.OnCalendar) (hnow : now.OnCalendar)
    (status : Nat) (body : String) (headers : List (String × String)) :
    ((probe (.ofHeaders status body headers) first now).isSome = true ↔
        Tells headers remainingHeader 0) ∧
      ∀ limit, probe (.ofHeaders status body headers) first now = some limit →
        (∀ reset, Tells headers resetHeader reset → UntilReset reset now limit.wait) ∧
        ((∀ reset, ¬ Tells headers resetHeader reset) → RestOfHour first now limit.wait) := by
  unfold probe
  split
  · rename_i hleft
    refine ⟨⟨fun _ => number?_ofHeaders_iff.mp hleft, fun _ => rfl⟩, ?_⟩
    intro limit hlimit
    obtain rfl := Option.some.inj hlimit
    refine ⟨?_, ?_⟩
    · intro reset hreset
      rw [number?_ofHeaders_iff.mpr hreset]
      obtain ⟨value, -, -, hrange⟩ := hreset
      exact untilReset_spec hrange hnow
    · intro hnone
      rw [number?_eq_none hnone]
      exact restOfHour_spec hfirst hnow
  · rename_i hleft
    refine ⟨⟨fun h => ?_, fun h => ?_⟩, ?_⟩
    · cases h
    · exact absurd (number?_ofHeaders_iff.mpr h) hleft
    · intro limit hlimit
      cases hlimit

/-- No requests are left, and a reset is named twice. -/
def exhausted : List (String × String) :=
  [("X-RateLimit-Remaining", " +0"), ("X-RateLimit-Reset", "12"), ("x-ratelimit-RESET", "1000300 ")]

theorem exhausted_tells :
    Tells exhausted remainingHeader 0 ∧ Tells exhausted resetHeader 1000300 := by
  have hremaining : Text.lower "X-RateLimit-Remaining" = remainingHeader :=
    Text.lower_eq (by decide)
  have hreset : Text.lower "X-RateLimit-Reset" = resetHeader := Text.lower_eq (by decide)
  have hreset' : Text.lower "x-ratelimit-RESET" = resetHeader := Text.lower_eq (by decide)
  have hdistinct : resetHeader ≠ remainingHeader := by decide
  refine ⟨⟨" +0", ⟨[], _, _, rfl, ?_, ?_⟩, Text.int64?_trimBy_iff.mp (by decide)⟩,
    ⟨"1000300 ", ⟨exhausted.take 2, _, [], rfl, ?_, ?_⟩, Text.int64?_trimBy_iff.mp (by decide)⟩⟩
  · rw [hremaining, lower_remainingHeader]
  · simp [hreset, hreset', lower_remainingHeader, hdistinct]
  · rw [hreset', lower_resetHeader]
  · simp

theorem exhausted_probe_meaning :
    (⟨999000000000000⟩ : Moment).OnCalendar ∧ (⟨1000000500000000⟩ : Moment).OnCalendar ∧
      ∃ limit, probe (.ofHeaders 429 "" exhausted) ⟨999000000000000⟩ ⟨1000000500000000⟩ =
          some limit ∧ UntilReset 1000300 ⟨1000000500000000⟩ limit.wait := by
  have hfirst : (⟨999000000000000⟩ : Moment).OnCalendar := by
    constructor <;> decide
  have hnow : (⟨1000000500000000⟩ : Moment).OnCalendar := by
    constructor <;> decide
  obtain ⟨hremaining, hreset⟩ := exhausted_tells
  obtain ⟨hsome, hwait⟩ := probe_meaning hfirst hnow 429 "" exhausted
  obtain ⟨limit, hlimit⟩ := Option.isSome_iff_exists.mp (hsome.mpr hremaining)
  exact ⟨hfirst, hnow, limit, hlimit, (hwait limit hlimit).1 _ hreset⟩

end Quota
end Feed
end FeedPoller
