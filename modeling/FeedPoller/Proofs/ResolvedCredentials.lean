import FeedPoller.Config.Resolve
import FeedPoller.Feed.Path
import FeedPoller.Proofs.Trimming

/-! What the written credentials become. What is written out is trimmed, and counts as absent if nothing is
left; what a variable holds is taken as it stands. Main statement: as long as the variables that stand
in for values hold values themselves, with no blanks at their ends, so do all credentials that are
resolved, and no session fails because one of them is empty (`values_of_resolve`). -/

namespace FeedPoller

/-- More than blanks, and none at the ends. -/
structure IsValue (s : String) : Prop where
  nonempty : s ≠ ""
  trimmed : Text.Trimmed s

/-- A value is not what a session takes for empty. -/
theorem IsValue.not_allBlank {s : String} (h : IsValue s) : Text.allBlank s = false := by
  cases hchars : s.toList with
  | nil => exact absurd (String.toList_inj.mp (hchars.trans String.toList_empty.symm)) h.nonempty
  | cons c rest =>
    have hfirst : Text.isBlank c = false := h.trimmed.first c (by rw [hchars]; rfl)
    rw [Text.allBlank, hchars, List.all_cons, hfirst]
    rfl

theorem isValue_trim {s : String} (h : Text.trim s ≠ "") : IsValue (Text.trim s) :=
  ⟨h, Text.trimmed_trim s⟩

namespace CredentialsSection

/-- The word that stands for a variable, in capitals or not, with blanks around it or not. -/
def IsMarker (written : String) : Prop := Text.lower (Text.trim written) = "env"

/-- What may be written, each with the variable that may stand in for it. -/
def sources (s : CredentialsSection) : List (Option String × String) := [
  (s.consumerToken, "POLLER_CONSUMER_TOKEN"), (s.consumerSecret, "POLLER_CONSUMER_SECRET"),
  (s.userToken, "POLLER_USER_TOKEN"), (s.userSecret, "POLLER_USER_SECRET")]

section

variable {env : Environment} {written : Option String} {name value : String}

/-- The word is no blank one. -/
theorem isEmpty_of_isMarker {w : String} (h : IsMarker w) : (Text.trim w).isEmpty = false := by
  rw [Bool.eq_false_iff, ne_eq, String.isEmpty_iff]
  intro hempty
  have hchars := congrArg String.toList h
  rw [hempty, Text.lower, String.toList_map, String.toList_empty] at hchars
  revert hchars
  decide

theorem resolveValue_marker {w : String} (h : IsMarker w) (hvariable : Named.get? name env = some value) :
    resolveValue env (some w) name = .ok (some value) := by
  have hword : (Text.lower (Text.trim w) == "env") = true := beq_iff_eq.mpr h
  simp only [resolveValue, Option.map_some, isEmpty_of_isMarker h, hword, hvariable, if_true,
    Bool.false_eq_true, if_false]

theorem resolveValue_literal {w : String} (h : ¬ IsMarker w) (hempty : (Text.trim w).isEmpty = false) :
    resolveValue env (some w) name = .ok (some (Text.trim w)) := by
  have hword : (Text.lower (Text.trim w) == "env") = false := beq_eq_false_iff_ne.mpr h
  simp only [resolveValue, Option.map_some, hempty, hword, Bool.false_eq_true, if_false]

/-- A value comes from its variable just as it stands, or is what is written without the blanks
around it. -/
theorem resolveValue_eq_ok_some (h : resolveValue env written name = .ok (some value)) :
    ∃ w, written = some w ∧ (IsMarker w ∧ Named.get? name env = some value ∨
      ¬ IsMarker w ∧ value = Text.trim w ∧ value ≠ "") := by
  cases written with
  | none => cases h
  | some w =>
    refine ⟨w, rfl, ?_⟩
    by_cases hmarker : IsMarker w
    · refine .inl ⟨hmarker, ?_⟩
      cases hvariable : Named.get? name env with
      | none =>
        have hword : (Text.lower (Text.trim w) == "env") = true := beq_iff_eq.mpr hmarker
        simp [resolveValue, isEmpty_of_isMarker hmarker, hword, hvariable] at h
      | some v =>
        rw [resolveValue_marker hmarker hvariable] at h
        exact Except.ok.inj h
    · refine .inr ⟨hmarker, ?_⟩
      cases hempty : (Text.trim w).isEmpty with
      | true => simp [resolveValue, hempty] at h
      | false =>
        rw [resolveValue_literal hmarker hempty] at h
        obtain rfl := Option.some.inj (Except.ok.inj h)
        refine ⟨rfl, fun hnil => ?_⟩
        rw [hnil] at hempty
        cases hempty

theorem isValue_of_resolveValue (h : resolveValue env written name = .ok (some value))
    (hvariable : ∀ w, written = some w → IsMarker w → ∀ v, Named.get? name env = some v →
      IsValue v) : IsValue value := by
  obtain ⟨w, rfl, ⟨hmarker, hvalue⟩ | ⟨-, rfl, hnonempty⟩⟩ := resolveValue_eq_ok_some h
  · exact hvariable w rfl hmarker value hvalue
  · exact isValue_trim hnonempty

end

theorem bothOrNeither_eq_ok_some {whose : String} {token? secret? : Option String} {c : Credentials}
    (h : bothOrNeither whose token? secret? = .ok (some c)) :
    token? = some c.token ∧ secret? = some c.secret := by
  unfold bothOrNeither at h
  split at h
  · cases h
    exact ⟨rfl, rfl⟩
  · cases h
  · cases h

/-- What is resolved, step by step. -/
theorem resolve_eq_ok {s : CredentialsSection} {env : Environment} {creds : CredentialSet}
    (h : s.resolve env = .ok creds) : ∃ ct cs ut us,
      resolveValue env s.consumerToken "POLLER_CONSUMER_TOKEN" = .ok ct ∧
      resolveValue env s.consumerSecret "POLLER_CONSUMER_SECRET" = .ok cs ∧
      bothOrNeither "consumer" ct cs = .ok creds.consumer ∧
      resolveValue env s.userToken "POLLER_USER_TOKEN" = .ok ut ∧
      resolveValue env s.userSecret "POLLER_USER_SECRET" = .ok us ∧
      bothOrNeither "user" ut us = .ok creds.user := by
  unfold resolve at h
  obtain ⟨ct, hct, h⟩ := bind_eq_ok_iff.mp h
  obtain ⟨cs, hcs, h⟩ := bind_eq_ok_iff.mp h
  obtain ⟨consumer, hconsumer, h⟩ := bind_eq_ok_iff.mp h
  obtain ⟨ut, hut, h⟩ := bind_eq_ok_iff.mp h
  obtain ⟨us, hus, h⟩ := bind_eq_ok_iff.mp h
  obtain ⟨user, huser, h⟩ := bind_eq_ok_iff.mp h
  cases h
  exact ⟨ct, cs, ut, us, hct, hcs, hconsumer, hut, hus, huser⟩

end CredentialsSection

namespace Feed.Path

/-- What a session says of a field that is empty. -/
def emptyField (field : String) : SessionFailure := .malformedCredentials (field ++ " is empty")

/-- A field that is no more than unfit for a header is not called empty. -/
theorem ne_emptyField_of_checkField {whose field value : String} {e : SessionFailure}
    (h : checkField whose field value = .error e) (hvalue : Text.allBlank value = false)
    (name : String) : e ≠ emptyField name := by
  unfold checkField at h
  rw [if_neg (by rw [hvalue]; decide)] at h
  split at h
  · cases h
    intro heq
    have hchars := congrArg (fun s => s.toList.getLast?) (SessionFailure.malformedCredentials.inj heq)
    have hheaders : " contains characters not allowed in headers".toList.getLast? = some 's' := by
      decide +kernel
    have hempty : " is empty".toList.getLast? = some 'y' := by decide +kernel
    have hlast : ∀ s t : String, t.toList.getLast?.isSome →
        (s ++ t).toList.getLast? = t.toList.getLast? := by
      intro s t ht
      rw [String.toList_append, List.getLast?_append_of_ne_nil _ fun hnil => by simp [hnil] at ht]
    rw [hlast _ _ (hheaders ▸ rfl), hlast _ _ (hempty ▸ rfl), hheaders, hempty] at hchars
    cases hchars
  · cases h

theorem ne_emptyField_of_checkCredentials {whose : String} {c : Credentials} {e : SessionFailure}
    (h : checkCredentials whose c = .error e) (htoken : IsValue c.token) (hsecret : IsValue c.secret)
    (name : String) : e ≠ emptyField name := by
  obtain hfirst | ⟨-, -, hsecond⟩ := bind_eq_error_iff.mp h
  · exact ne_emptyField_of_checkField hfirst htoken.not_allBlank name
  · exact ne_emptyField_of_checkField hsecond hsecret.not_allBlank name

theorem ne_emptyField_of_openSession {p : Path} {consumer user : Credentials} {e : SessionFailure}
    (h : p.openSession consumer user = .error e)
    (hvalues : ∀ c, c = consumer ∨ c = user → IsValue c.token ∧ IsValue c.secret) (name : String) :
    e ≠ emptyField name := by
  obtain ⟨hconsumer, hconsumer'⟩ := hvalues consumer (.inl rfl)
  obtain ⟨huser, huser'⟩ := hvalues user (.inr rfl)
  rw [openSession_eq] at h
  obtain hfirst | ⟨-, -, hrest⟩ := bind_eq_error_iff.mp h
  · exact ne_emptyField_of_checkCredentials hfirst hconsumer hconsumer' name
  obtain hsecond | ⟨-, -, hdone⟩ := bind_eq_error_iff.mp hrest
  · exact ne_emptyField_of_checkCredentials hsecond huser huser' name
  · cases hdone

end Feed.Path

namespace CredentialsSection

open Feed.Path (emptyField)

/-- If the variables that are asked for hold values, all that is resolved are values, however they were
written, and no session with them fails because a field is empty. -/
theorem values_of_resolve {s : CredentialsSection} {env : Environment} {creds : CredentialSet}
    (h : s.resolve env = .ok creds)
    (hvariables : ∀ written name, (some written, name) ∈ s.sources → IsMarker written →
      ∀ value, Named.get? name env = some value → IsValue value) :
    (∀ c, creds.consumer = some c ∨ creds.user = some c → IsValue c.token ∧ IsValue c.secret) ∧
      ∀ consumer user, creds.pair = some (consumer, user) → ∀ (p : Feed.Path) (e : SessionFailure),
        p.openSession consumer user = .error e → ∀ field, e ≠ emptyField field := by
  obtain ⟨ct, cs, ut, us, hct, hcs, hconsumer, hut, hus, huser⟩ := resolve_eq_ok h
  have hsource : ∀ {written : Option String} {name value : String}, (written, name) ∈ s.sources →
      resolveValue env written name = .ok (some value) → IsValue value := by
    intro written name value hmem hvalue
    refine isValue_of_resolveValue hvalue ?_
    rintro w rfl hmarker
    exact hvariables w name hmem hmarker
  have hvalues : ∀ c, creds.consumer = some c ∨ creds.user = some c →
      IsValue c.token ∧ IsValue c.secret := by
    rintro c (hc | hc)
    · rw [hc] at hconsumer
      obtain ⟨rfl, rfl⟩ := bothOrNeither_eq_ok_some hconsumer
      exact ⟨hsource (by simp [sources]) hct, hsource (by simp [sources]) hcs⟩
    · rw [hc] at huser
      obtain ⟨rfl, rfl⟩ := bothOrNeither_eq_ok_some huser
      exact ⟨hsource (by simp [sources]) hut, hsource (by simp [sources]) hus⟩
  refine ⟨hvalues, fun consumer user hpair p e herror => ?_⟩
  have hboth : creds.consumer = some consumer ∧ creds.user = some user := by
    rcases creds with ⟨_ | _, _ | _⟩ <;> cases hpair
    exact ⟨rfl, rfl⟩
  refine Feed.Path.ne_emptyField_of_openSession herror ?_
  rintro c (rfl | rfl)
  · exact hvalues _ (.inl hboth.1)
  · exact hvalues _ (.inr hboth.2)

/-- One value written out, three taken from the environment. -/
def mixed : CredentialsSection where
  consumerToken := some " ENV"
  consumerSecret := some " cs "
  userToken := some "env"
  userSecret := some "Env"

def exported (consumerToken userToken userSecret : String) : Environment := [
  ("POLLER_CONSUMER_TOKEN", consumerToken), ("POLLER_USER_SECRET", userSecret),
  ("POLLER_USER_TOKEN", userToken)]

theorem resolve_mixed (consumerToken userToken userSecret : String) :
    mixed.resolve (exported consumerToken userToken userSecret) =
      .ok ⟨some ⟨consumerToken, "cs"⟩, some ⟨userToken, userSecret⟩⟩ := by
  have hconsumerToken : resolveValue (exported consumerToken userToken userSecret) mixed.consumerToken
      "POLLER_CONSUMER_TOKEN" = .ok (some consumerToken) :=
    resolveValue_marker (Text.lower_eq (by decide +kernel)) (by simp [exported, Named.get?_cons])
  have hliteral : ¬ IsMarker " cs " := by
    intro h
    have hchars := congrArg String.toList h
    rw [Text.lower, String.toList_map] at hchars
    revert hchars
    decide +kernel
  have hconsumerSecret : resolveValue (exported consumerToken userToken userSecret)
      mixed.consumerSecret "POLLER_CONSUMER_SECRET" = .ok (some "cs") :=
    resolveValue_literal hliteral (by decide +kernel)
  have huserToken : resolveValue (exported consumerToken userToken userSecret) mixed.userToken
      "POLLER_USER_TOKEN" = .ok (some userToken) :=
    resolveValue_marker (Text.lower_eq (by decide +kernel)) (by simp [exported, Named.get?_cons])
  have huserSecret : resolveValue (exported consumerToken userToken userSecret) mixed.userSecret
      "POLLER_USER_SECRET" = .ok (some userSecret) :=
    resolveValue_marker (Text.lower_eq (by decide +kernel)) (by simp [exported, Named.get?_cons])
  rw [resolve, hconsumerToken, hconsumerSecret, huserToken, huserSecret]
  rfl

theorem mixed_values_of_resolve :
    mixed.resolve (exported "ck" "ann" "s t") =
        .ok ⟨some ⟨"ck", "cs"⟩, some ⟨"ann", "s t"⟩⟩ ∧
      (∀ written name, (some written, name) ∈ mixed.sources → IsMarker written →
        ∀ value, Named.get? name (exported "ck" "ann" "s t") = some value → IsValue value) ∧
      IsValue "ann" ∧ IsValue "s t" := by
  have hall : ∀ v ∈ exported "ck" "ann" "s t", IsValue v.2 := by
    simp only [exported, List.forall_mem_cons]
    exact ⟨⟨by decide, by decide⟩, ⟨by decide, by decide⟩, ⟨by decide, by decide⟩, by simp⟩
  have hvariables : ∀ written name, (some written, name) ∈ mixed.sources → IsMarker written →
      ∀ value, Named.get? name (exported "ck" "ann" "s t") = some value → IsValue value := by
    intro written name _ _ value hvalue
    have hnodup : ((exported "ck" "ann" "s t").map Prod.fst).Nodup := by decide
    exact hall _ ((Named.get?_eq_some_iff hnodup).mp hvalue)
  have h := (values_of_resolve (resolve_mixed "ck" "ann" "s t") hvariables).1 _ (.inr rfl)
  exact ⟨resolve_mixed .., hvariables, h.1, h.2⟩

/-- What the variables hold is not looked at: a token keeps the blanks around it, a user has neither
a token nor a secret, and their session fails on whatever path. -/
theorem blank_variables_resolved :
    mixed.resolve (exported " ck " "" " ") = .ok ⟨some ⟨" ck ", "cs"⟩, some ⟨"", " "⟩⟩ ∧
      ¬ IsValue " ck " ∧ ¬ IsValue "" ∧ ∀ p : Feed.Path,
        p.openSession ⟨" ck ", "cs"⟩ ⟨"", " "⟩ = .error (emptyField "user token") := by
  refine ⟨resolve_mixed .., fun h => absurd h.trimmed (by decide), fun h => h.nonempty rfl, fun p => ?_⟩
  rw [Feed.Path.openSession_eq]
  rfl

end CredentialsSection
end FeedPoller
