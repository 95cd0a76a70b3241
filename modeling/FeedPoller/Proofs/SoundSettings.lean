import FeedPoller.Clockwork

/-! Which settings a poller is run with, and that it is safe with them. Main statement: the settings
that are accepted are those with room for an id, time between polls and, with a rate limit, a complete
one that leaves time as well; a poller with such settings never divides by nothing, never has two ticks
at once and remembers as many ids as it was told to (`accepted_safe`). -/

namespace FeedPoller

namespace Settings

/-- A rate limit that says all there is to say, and leaves time between polls. -/
structure LeavesTime (limit : Nat) (window? : Option Span) (period? : Option Nat) : Prop where
  limit_pos : 0 < limit
  complete : ∃ window period, window? = some window ∧ period? = some period ∧ 0 < window.nanos ∧
    0 < period ∧ 0 < (Backoff.nominalDelay limit window period).nanos

/-- What settings have to be like. -/
structure Sound (s : Settings) : Prop where
  maxHistory : 1 ≤ s.maxHistory ∧ s.maxHistory ≤ 100000
  pollInterval : 0 < s.pollInterval.nanos
  rate : ∀ limit, s.rateLimit = some limit → LeavesTime limit s.rateWindow s.ratePeriod

theorem validateRate_iff_leavesTime {limit : Nat} {window? : Option Span} {period? : Option Nat} :
    validateRate limit window? period? = .ok () ↔ LeavesTime limit window? period? := by
  simp only [validateRate_eq_ok_iff, Span.isZero_eq_false_iff, ← Nat.pos_iff_ne_zero]
  exact ⟨fun ⟨hlimit, hcomplete⟩ => ⟨hlimit, hcomplete⟩, fun h => ⟨h.limit_pos, h.complete⟩⟩

theorem validate_iff_sound {s : Settings} : s.validate = .ok () ↔ s.Sound := by
  simp only [validate_eq_ok_iff, validateRate_iff_leavesTime, Span.isZero_eq_false_iff]
  exact ⟨fun ⟨hhistory, hrate, hinterval⟩ => ⟨hhistory, hinterval, hrate⟩,
    fun h => ⟨h.maxHistory, h.rate, h.pollInterval⟩⟩

/-- With a rate limit the delay is the quotient of all its windows, up to the longest span, by the limit;
the divisor is not zero. -/
theorem Sound.quotient {s : Settings} (h : s.Sound) {limit : Nat} (hlimit : s.rateLimit = some limit) :
    limit ≠ 0 ∧ ∃ window period, s.rateWindow = some window ∧ s.ratePeriod = some period ∧
      s.scheduleDelay.nanos = min (window.nanos * period) (Span.limit - 1) / limit := by
  obtain ⟨hpos, window, period, hwindow, hperiod, -⟩ := h.rate limit hlimit
  have hne : limit ≠ 0 := Nat.pos_iff_ne_zero.mp hpos
  have hdelay : s.scheduleDelay = Backoff.nominalDelay limit window period := by
    rw [scheduleDelay, hlimit, hwindow, hperiod]
  exact ⟨hne, window, period, hwindow, hperiod, hdelay ▸ Backoff.nanos_nominalDelay hne ..⟩

end Settings

namespace Poller

/-- That nothing goes wrong for the settings of a poller. -/
structure Safe (p : Poller) : Prop where
  delay : 1 ≤ p.settings.scheduleDelay.nanos
  quotient : ∀ limit, p.settings.rateLimit = some limit → limit ≠ 0 ∧ ∃ window period,
    p.settings.rateWindow = some window ∧ p.settings.ratePeriod = some period ∧
      p.settings.scheduleDelay.nanos = min (window.nanos * period) (Span.limit - 1) / limit
  ticks : ∀ deadline now, deadline < Clockwork.nextDeadline p deadline now
  begins : ∀ {σ : Type} (b : Backend σ) (sink : Sink) (s made : σ) (path : PathId),
    b.create s = (.ok path, made) →
      ∃ w, World.init p b sink s = .ok w ∧ w.history.capacity = p.settings.maxHistory

/-- However late a tick is taken, the next one comes after it. -/
theorem lt_nextDeadline {p : Poller} (h : 1 ≤ p.settings.scheduleDelay.nanos) (deadline now : Nat) :
    deadline < Clockwork.nextDeadline p deadline now := by
  unfold Clockwork.nextDeadline
  dsimp only
  split <;> omega

/-- As many ids are remembered as the settings say, if these are allowed. -/
theorem begins_of_sound {σ : Type} {p : Poller} (h : p.settings.Sound) {b : Backend σ} (sink : Sink)
    {s made : σ} {path : PathId} (hcreate : b.create s = (.ok path, made)) :
    ∃ w, World.init p b sink s = .ok w ∧ w.history.capacity = p.settings.maxHistory := by
  obtain ⟨hpos, hmax⟩ := h.maxHistory
  refine ⟨_, by rw [World.init, Settings.validate_iff_sound.mpr h, hcreate], ?_⟩
  simp only [History.new, maxCapacity]
  omega

/-- Settings are accepted just when they are sound, and whatever a poller with such settings is run on,
its ticks come one after another and it remembers as many ids as it was told to. -/
theorem accepted_safe (p : Poller) :
    (p.settings.validate = .ok () ↔ p.settings.Sound) ∧
      (p.settings.validate = .ok () → p.Safe) := by
  refine ⟨Settings.validate_iff_sound, fun hvalid => ?_⟩
  have hsound := Settings.validate_iff_sound.mp hvalid
  have hdelay := Span.isZero_eq_false_iff.mp (Settings.scheduleDelay_of_validate hvalid)
  exact {
    delay := hdelay
    quotient := fun _ => hsound.quotient
    ticks := lt_nextDeadline hdelay
    begins := fun _ sink _ _ _ => begins_of_sound hsound sink }

/-- So many windows, the longest there can be, that together they are longer than any span. -/
def overlong : Poller where
  settings := {
    maxHistory := 100000
    rateLimit := some 4294967295
    rateWindow := some .longest
    ratePeriod := some 4294967295 }
  background := {}

theorem overlong_accepted_safe :
    overlong.settings.validate = .ok () ∧ overlong.settings.Sound ∧ overlong.Safe ∧
      overlong.settings.scheduleDelay.nanos = 4294967297000000000 := by
  have hvalid : overlong.settings.validate = .ok () := by rfl
  obtain ⟨haccepted, hsafe⟩ := accepted_safe overlong
  exact ⟨hvalid, haccepted.mp hvalid, hsafe hvalid, by decide⟩

/-- One request more than there are nanoseconds. -/
example :
    ({ rateLimit := some 1000000001, rateWindow := some (.ofSecs 1), ratePeriod := some 1 } :
      Settings).validate =
      .error (.invalidValue "rate_limit" "1000000001 per 1s x 1 leaves no delay between polls") := by
  rfl

end Poller
end FeedPoller
