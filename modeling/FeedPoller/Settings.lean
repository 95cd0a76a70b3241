import FeedPoller.Backoff
import FeedPoller.History
import FeedPoller.Json.Value

/-! The settings of a poller. `validate` accepts those it can run with. -/

namespace FeedPoller

/-- With a rate limit, `rateLimit` polls may be made in `ratePeriod` windows of `rateWindow`, and
the delay between polls follows from that; without one, `pollInterval` is the delay. -/
structure Settings where
  maxHistory : Nat := 200
  skipDuplicates : Bool := false
  pollEnabled : Bool := true
  rateLimit : Option Nat := none
  rateWindow : Option Span := none
  ratePeriod : Option Nat := none
  autoDelay : Bool := false
  pollInterval : Span := .ofSecs 60
  query : Json.Fields := []
  deriving Repr

namespace Settings

/-- The delay between scheduled polls. -/
def scheduleDelay (s : Settings) : Span :=
  match s.rateLimit, s.rateWindow, s.ratePeriod with
  | some limit, some window, some period => Backoff.nominalDelay limit window period
  | _, _, _ => s.pollInterval

/-- A quota that leaves no time between polls. -/
def noDelay (limit : Nat) (window : Span) (period : Nat) : String :=
  toString limit ++ " per " ++ window.text ++ " x " ++ toString period ++
    " leaves no delay between polls"

/-- Whether a rate limit is complete and leaves a delay. -/
def validateRate (limit : Nat) (window? : Option Span) (period? : Option Nat) :
    Except ConfigFailure Unit :=
  if limit = 0 then .error (.invalidValue "rate_limit" "must be greater than zero")
  else
    match window?, period? with
    | none, _ => .error (.missingRate "rate_window")
    | some _, none => .error (.missingRate "rate_limit_period")
    | some window, some period =>
      if window.isZero then .error (.invalidValue "rate_window" "must be non-zero")
      else if period = 0 then
        .error (.invalidValue "rate_limit_period" "must be greater than zero")
      else if (Backoff.nominalDelay limit window period).isZero then
        .error (.invalidValue "rate_limit" (noDelay limit window period))
      else .ok ()

/-- Accepts the settings, or tells the first thing wrong with them. -/
def validate (s : Settings) : Except ConfigFailure Unit := do
  if s.maxHistory = 0 ∨ maxCapacity < s.maxHistory then
    .error (.invalidValue "max_history" ("must be within 1..=" ++ toString maxCapacity))
  match s.rateLimit with
  | some limit => validateRate limit s.rateWindow s.ratePeriod
  | none => .ok ()
  if s.pollInterval.isZero then .error (.invalidValue "poll_interval" "must be non-zero")

theorem validateRate_eq_ok_iff {limit : Nat} {window? : Option Span} {period? : Option Nat} :
    validateRate limit window? period? = .ok () ↔
      limit ≠ 0 ∧ ∃ window period, window? = some window ∧ period? = some period ∧
        window.isZero = false ∧ period ≠ 0 ∧
        (Backoff.nominalDelay limit window period).isZero = false := by
  unfold validateRate
  split
  · rename_i hlimit
    simp [hlimit]
  · rename_i hlimit
    cases window? with
    | none => simp
    | some window =>
      cases period? with
      | none => simp
      | some period =>
        cases hwindow : window.isZero with
        | true => simp [hwindow]
        | false =>
          by_cases hperiod : period = 0
          · simp [hwindow, hperiod]
          · cases hdelay : (Backoff.nominalDelay limit window period).isZero <;>
              simp [hlimit, hperiod, hwindow, hdelay]

theorem validate_eq_ok_iff {s : Settings} :
    s.validate = .ok () ↔ (1 ≤ s.maxHistory ∧ s.maxHistory ≤ maxCapacity) ∧
      (∀ limit, s.rateLimit = some limit → validateRate limit s.rateWindow s.ratePeriod = .ok ()) ∧
      s.pollInterval.isZero = false := by
  have hrange : ¬ (s.maxHistory = 0 ∨ maxCapacity < s.maxHistory) ↔
      1 ≤ s.maxHistory ∧ s.maxHistory ≤ maxCapacity := by
    omega
  rw [← hrange]
  by_cases hhistory : s.maxHistory = 0 ∨ maxCapacity < s.maxHistory
  · simp [validate, hhistory, bind, Except.bind]
  · cases hinterval : s.pollInterval.isZero <;> cases hlimit : s.rateLimit with
    | none => simp [validate, hhistory, hinterval, hlimit, bind, Except.bind, pure, Except.pure]
    | some limit =>
      cases hrate : validateRate limit s.rateWindow s.ratePeriod <;>
        simp [validate, hhistory, hinterval, hlimit, hrate, bind, Except.bind, pure, Except.pure]

theorem maxHistory_of_validate {s : Settings} (h : s.validate = .ok ()) :
    1 ≤ s.maxHistory ∧ s.maxHistory ≤ maxCapacity := (validate_eq_ok_iff.mp h).1

/-- Accepted settings leave time between polls. -/
theorem scheduleDelay_of_validate {s : Settings} (h : s.validate = .ok ()) :
    s.scheduleDelay.isZero = false := by
  obtain ⟨-, hrate, hinterval⟩ := validate_eq_ok_iff.mp h
  cases hlimit : s.rateLimit with
  | none => simpa [scheduleDelay, hlimit] using hinterval
  | some limit =>
    obtain ⟨-, window, period, hwindow, hperiod, -, -, hdelay⟩ :=
      validateRate_eq_ok_iff.mp (hrate limit hlimit)
    simpa [scheduleDelay, hlimit, hwindow, hperiod] using hdelay

end Settings
end FeedPoller
