import FeedPoller.Proofs.QuotaWait

/-! What is shown of spans of time: milliseconds, in words of 64 bits. A suspension can be longer than
that, if the provider names a reset that is far away, and so can the delay between polls. Main
statement: as long as it is not, a report tells the milliseconds of its suspension, and no other
suspension that is shorter is shown as a longer one; a status tells those of its delay just when that is
not longer (`millis_shown`). -/

namespace FeedPoller

open Json (Value)

/-- A field that tells the milliseconds of a span. -/
def Shows (v : Value) (field : String) (s : Span) : Prop := v.get? field = some (.int s.millis)

/-! ## Reports and statuses -/

theorem get?_ofFields_last (fields : List (String × Value)) (name : String) (value : Value) :
    (Value.ofFields (fields ++ [(name, value)])).get? name = some value := by
  rw [Value.ofFields, Value.get?, Named.ofList, List.foldl_concat]
  exact Named.get?_insert_self name value _

theorem suspendedFor_value (r : CycleReport) : r.value.get? "suspended_for_ms" =
    some (.ofOption (fun s => .nat s.millisWord) r.suspendedFor) := by
  have hother : ("suspended_for_ms" : String) ≠ "aborted" := by decide
  exact (Named.get?_insert_of_ne _ _ hother).trans (get?_ofFields_last
    [("fetched", .nat r.fetched), ("dispatched", .nat r.dispatched), ("skipped", .nat r.skipped)] ..)

theorem scheduleDelay_value (s : Poller.Status) :
    s.value.get? "schedule_delay_ms" = some (.nat s.scheduleDelay.millisWord) :=
  get?_ofFields_last [("state", .str s.state.name), ("generation", .nat s.generation),
    ("auth_required", .bool s.authRequired)] ..

/-- A report shows its suspension just when that is not too long. -/
theorem shows_suspendedFor_iff {r : CycleReport} {s : Span} (h : r.suspendedFor = some s) :
    Shows r.value "suspended_for_ms" s ↔ s.millis < 0x10000000000000000 := by
  rw [Shows, suspendedFor_value, h, ← Span.millisWord_eq_iff]
  simp [Value.ofOption, Value.nat]

/-- And a status its delay. -/
theorem shows_scheduleDelay_iff {s : Poller.Status} :
    Shows s.value "schedule_delay_ms" s.scheduleDelay ↔
      s.scheduleDelay.millis < 0x10000000000000000 := by
  rw [Shows, scheduleDelay_value, ← Span.millisWord_eq_iff]
  simp [Value.nat]

/-! ## Suspensions -/

/-- How long a suspension may be to be shown. -/
theorem millis_lt_of_secs {s : Span} {n : Nat} (h : s.nanos ≤ n * 1000000000)
    (hn : n < 18446744073709552) : s.millis < 0x10000000000000000 := by
  unfold Span.millis
  omega

theorem nanos_untilReset_le (reset : Int) (now : Feed.Moment) :
    (Feed.Quota.untilReset reset now).nanos ≤ (reset - now.secs).toNat * 1000000000 := by
  show min ((min (reset - now.secs) 0x7fffffffffffffff).toNat * 1000000000) (Span.limit - 1) ≤ _
  omega

/-- The wait for a reset that is not too far away, and any wait without one. -/
theorem millis_wait_lt {reply : Http.Reply} {first now : Feed.Moment} {limit : RateLimit}
    (h : Feed.Quota.probe reply first now = some limit)
    (hreset : ∀ reset, Feed.Quota.number? reply Feed.Quota.resetHeader = some reset →
      reset - now.secs < 18446744073709552) : limit.wait.millis < 0x10000000000000000 := by
  unfold Feed.Quota.probe at h
  split at h
  · obtain rfl := Option.some.inj h
    dsimp only
    split
    · rename_i reset hnamed
      have hfar := hreset reset hnamed
      exact millis_lt_of_secs (nanos_untilReset_le reset now) (by omega)
    · exact millis_lt_of_secs (n := 3600) (Nat.sub_le ..) (by decide)
  · cases h

/-- What a suspension is set to: an hour at most with `autoDelay`, and else as long as was asked. -/
theorem millis_suspend_lt {limit : RateLimit} {autoDelay : Bool}
    (h : autoDelay = false → limit.wait.millis < 0x10000000000000000) (c : Control) (now : Nat) :
    (c.suspend now limit autoDelay).1.millis < 0x10000000000000000 := by
  cases autoDelay with
  | false => exact h rfl
  | true => exact millis_lt_of_secs (n := 3600) (Nat.sub_le ..) (by decide)

variable {σ : Type} {p : Poller} {b : Backend σ}

/-- Whatever goes on while a poll waits for its read: if that is a rate limit, the poll reports the
suspension that it sets. -/
theorem outcome_of_rateLimited {w : World σ} {path : PathId} {cursor : Option String}
    {params : Json.Fields} {limit : RateLimit}
    (hread : (b.read path cursor params w.backend).1.value = .error (.rateLimited limit))
    (who : Identity) (creds : CredentialSet) (amid : Nat → World σ → World σ) (n : Nat) :
    ∃ (c : Control) (now : Nat),
      (w.runAmid p b amid (p.poll path who cursor params creds) n).outcome =
        .ok { suspendedFor := some (c.suspend now limit p.settings.autoDelay).1 } := by
  simp only [Poller.poll, Plan.one, bind, Plan.bind, World.runAmid, World.perform, hread,
    Action.waits, if_true]
  exact ⟨_, _, rfl⟩

/-- A status shows the delay between polls just when that is less than 2 ^ 64 milliseconds. A poll whose
read is a rate limit, by a reset that is less than that away if `autoDelay` does not stand in for it,
shows its suspension, and no shorter suspension is shown as a longer one. -/
theorem millis_shown (p : Poller) (b : Backend σ) (w : World σ) (amid : Nat → World σ → World σ)
    (n : Nat) :
    (Shows (w.runAmid p b amid p.status n).outcome.value "schedule_delay_ms"
        p.settings.scheduleDelay ↔ p.settings.scheduleDelay.millis < 0x10000000000000000) ∧
      ∀ {reply : Http.Reply} {first answered : Feed.Moment} {limit : RateLimit},
        Feed.Quota.probe reply first answered = some limit →
        (p.settings.autoDelay = false → ∀ reset,
          Feed.Quota.number? reply Feed.Quota.resetHeader = some reset →
            reset - answered.secs < 18446744073709552) →
        ∀ {path : PathId} {cursor : Option String} {params : Json.Fields},
          (b.read path cursor params w.backend).1.value = .error (.rateLimited limit) →
          ∀ (who : Identity) (creds : CredentialSet), ∃ report wait,
            (w.runAmid p b amid (p.poll path who cursor params creds) n).outcome = .ok report ∧
            report.suspendedFor = some wait ∧ Shows report.value "suspended_for_ms" wait ∧
            ∀ (report' : CycleReport) (wait' : Span), report'.suspendedFor = some wait' →
              wait'.nanos ≤ wait.nanos → ∃ n ≤ wait.millis,
                report'.value.get? "suspended_for_ms" = some (.nat n) := by
  refine ⟨shows_scheduleDelay_iff, ?_⟩
  intro reply first answered limit hlimit hreset path cursor params hread who creds
  obtain ⟨c, now, houtcome⟩ := outcome_of_rateLimited (p := p) hread who creds amid n
  have hwait := millis_suspend_lt (fun hauto => millis_wait_lt hlimit (hreset hauto)) c now
  refine ⟨_, _, houtcome, rfl, (shows_suspendedFor_iff rfl).mpr hwait, ?_⟩
  intro report' wait' hwait' hshorter
  have hle : wait'.millis ≤ (c.suspend now limit p.settings.autoDelay).1.millis :=
    Nat.div_le_div_right hshorter
  exact ⟨wait'.millis, hle, (shows_suspendedFor_iff hwait').mpr (Nat.lt_of_le_of_lt hle hwait)⟩

/-! ## Far resets -/

/-- No requests are left before a second of the clock. -/
def leftUntil (reset : String) : Http.Reply :=
  .ofHeaders 429 "" [(Feed.Quota.remainingHeader, "0"), (Feed.Quota.resetHeader, reset)]

theorem number?_leftUntil {reset : String} {n : Int}
    (h : Text.int64? (Text.trimBy Text.isBlank reset.toList) = some n) :
    Feed.Quota.number? (leftUntil reset) Feed.Quota.remainingHeader = some 0 ∧
      Feed.Quota.number? (leftUntil reset) Feed.Quota.resetHeader = some n := by
  have hdistinct : Feed.Quota.resetHeader ≠ Feed.Quota.remainingHeader := by decide
  refine ⟨Feed.Quota.number?_ofHeaders_iff.mpr ⟨"0", ⟨[], _, _, rfl, rfl, ?_⟩,
      Text.int64?_trimBy_iff.mp (by decide)⟩,
    Feed.Quota.number?_ofHeaders_iff.mpr ⟨reset, ⟨[_], _, [], rfl, rfl, by simp⟩,
      Text.int64?_trimBy_iff.mp h⟩⟩
  simp [Feed.Quota.lower_remainingHeader, Feed.Quota.lower_resetHeader, hdistinct]

theorem probe_leftUntil {reset : String} {n : Int}
    (h : Text.int64? (Text.trimBy Text.isBlank reset.toList) = some n) (first now : Feed.Moment) :
    Feed.Quota.probe (leftUntil reset) first now = some ⟨Feed.Quota.untilReset n now⟩ := by
  rw [Feed.Quota.probe, (number?_leftUntil h).1, (number?_leftUntil h).2]
  rfl

/-- A backend that says so when it is read from. -/
def limitedBy (limit : RateLimit) : World Script where
  backend := { reads := [⟨.error (.rateLimited limit), none⟩] }
  history := .new 1 false

/-- A poller that polls seldom. -/
def seldom (secs : Nat) : Poller where
  settings := { pollInterval := .ofSecs secs }
  background := {}

def seldomPolled (secs : Nat) : Ran Script (Except Failure CycleReport) :=
  (limitedBy ⟨.ofSecs secs⟩).runAmid (seldom secs) Script.backend (fun _ w => w)
    ((seldom secs).poll backgroundPath .shared none [] {}) 0

def seldomStatus (secs : Nat) : Ran Script Poller.Status :=
  (limitedBy ⟨.ofSecs secs⟩).runAmid (seldom secs) Script.backend (fun _ w => w)
    (seldom secs).status 0

/-- As far away as can be. -/
theorem furthest_millis_shown :
    Feed.Quota.probe (leftUntil "18446744073709551") ⟨0⟩ ⟨0⟩ =
        some ⟨.ofSecs 18446744073709551⟩ ∧
      (∀ reset, Feed.Quota.number? (leftUntil "18446744073709551") Feed.Quota.resetHeader =
        some reset → reset - (⟨0⟩ : Feed.Moment).secs < 18446744073709552) ∧
      (seldom 18446744073709551).settings.validate = .ok () ∧
      (seldom 18446744073709551).settings.scheduleDelay.millis < 0x10000000000000000 ∧
      Shows (seldomStatus 18446744073709551).outcome.value "schedule_delay_ms"
        (seldom 18446744073709551).settings.scheduleDelay ∧
      ∃ report wait, (seldomPolled 18446744073709551).outcome = .ok report ∧
        report.suspendedFor = some wait ∧ Shows report.value "suspended_for_ms" wait := by
  have hnumber : Text.int64? (Text.trimBy Text.isBlank "18446744073709551".toList) =
      some 18446744073709551 := by
    decide +kernel
  have hreset : ∀ reset, Feed.Quota.number? (leftUntil "18446744073709551") Feed.Quota.resetHeader =
      some reset → reset - (⟨0⟩ : Feed.Moment).secs < 18446744073709552 := by
    intro reset h
    obtain rfl := Option.some.inj ((number?_leftUntil hnumber).2.symm.trans h)
    decide
  have hdelay : (seldom 18446744073709551).settings.scheduleDelay.millis < 0x10000000000000000 := by
    decide
  have hread : (Script.backend.read backgroundPath none []
      (limitedBy ⟨.ofSecs 18446744073709551⟩).backend).1.value =
        .error (.rateLimited ⟨.ofSecs 18446744073709551⟩) := rfl
  obtain ⟨hstatus, hpoll⟩ := millis_shown (seldom 18446744073709551) Script.backend
    (limitedBy ⟨.ofSecs 18446744073709551⟩) (fun _ w => w) 0
  obtain ⟨report, wait, houtcome, hwait, hshown, -⟩ :=
    hpoll (probe_leftUntil hnumber ⟨0⟩ ⟨0⟩) (fun _ => hreset) hread .shared {}
  exact ⟨probe_leftUntil hnumber .., hreset, rfl, hdelay, hstatus.mpr hdelay, report, wait, houtcome,
    hwait, hshown⟩

/-- One second further, half a billion years are shown as 384 milliseconds, for a suspension as for a
delay that is accepted. A suspension of one second is shown as longer. -/
theorem furthest_overrun :
    Feed.Quota.probe (leftUntil "18446744073709552") ⟨0⟩ ⟨0⟩ =
        some ⟨.ofSecs 18446744073709552⟩ ∧
      (seldom 18446744073709552).settings.validate = .ok () ∧
      (Span.ofSecs 18446744073709552).millis = 18446744073709552000 ∧
      (seldomPolled 18446744073709552).outcome =
        .ok { suspendedFor := some (.ofSecs 18446744073709552) } ∧
      ({ suspendedFor := some (.ofSecs 18446744073709552) } : CycleReport).value.get?
        "suspended_for_ms" = some (.nat 384) ∧
      (seldomStatus 18446744073709552).outcome.value.get? "schedule_delay_ms" = some (.nat 384) ∧
      ({ suspendedFor := some (.ofSecs 1) } : CycleReport).value.get? "suspended_for_ms" =
        some (.nat 1000) := by
  have hnumber : Text.int64? (Text.trimBy Text.isBlank "18446744073709552".toList) =
      some 18446744073709552 := by
    decide +kernel
  refine ⟨probe_leftUntil hnumber .., rfl, by decide, rfl, ?_, ?_, ?_⟩
  · rw [suspendedFor_value]
    rfl
  · rw [scheduleDelay_value]
    rfl
  · rw [suspendedFor_value]
    rfl

end FeedPoller
