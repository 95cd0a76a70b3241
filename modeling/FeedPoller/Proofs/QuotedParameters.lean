import FeedPoller.Feed.Path
import Mathlib.Data.List.Basic

/-! What an authorization says: parameters by name, the value of each between quotes. A value ends at the
next quote, and there is no other way to write one. Main statement: if the tokens of a session have no
quotes in them, its authorization says just these two, and no session with other tokens has the same
(`authorization_identifies`). -/

namespace FeedPoller.Feed

/-! ## Parameters -/

/-- Letters, digits and underscores. -/
def IsParameterName (s : String) : Prop :=
  (s.toList.all fun c => c.isAlphanum || c == '_') = true

instance (s : String) : Decidable (IsParameterName s) := inferInstanceAs (Decidable (_ = true))

/-- A value that can stand between quotes. -/
def Unquoted (s : String) : Prop := '"' ∉ s.toList

instance (s : String) : Decidable (Unquoted s) :=
  inferInstanceAs (Decidable (_ ∉ s.toList))

/-- A parameter as it is written, with what follows it. -/
def parameterChars (name value : String) (rest : List Char) : List Char :=
  name.toList ++ '=' :: '"' :: (value.toList ++ '"' :: rest)

/-- The parameters that a text spells out, in their order. -/
inductive Spells : List Char → List (String × String) → Prop
  | last {name value : String} : IsParameterName name → Unquoted value →
      Spells (parameterChars name value []) [(name, value)]
  | more {name value : String} {cs : List Char} {ps : List (String × String)} :
      IsParameterName name → Unquoted value → Spells cs ps →
      Spells (parameterChars name value (',' :: ' ' :: cs)) ((name, value) :: ps)

/-- An authorization begins with the name of its scheme. -/
def Authorizes (authorization : String) (ps : List (String × String)) : Prop :=
  ∃ cs, authorization.toList = "OAuth ".toList ++ cs ∧ Spells cs ps

theorem IsParameterName.no_equals {s : String} (h : IsParameterName s) : '=' ∉ s.toList := by
  intro hmem
  have heq := List.all_eq_true.mp h '=' hmem
  revert heq
  decide

/-- What stands before the first `x`, and what after it. -/
theorem append_cons_inj_of_not_mem {α : Type} {x : α} {before before' after after' : List α}
    (h : x ∉ before) (h' : x ∉ before') (heq : before ++ x :: after = before' ++ x :: after') :
    before = before' ∧ after = after' := by
  induction before generalizing before' with
  | nil =>
    cases before' with
    | nil => exact ⟨rfl, (List.cons.inj heq).2⟩
    | cons y _ => exact absurd ((List.cons.inj heq).1 ▸ List.mem_cons_self) h'
  | cons y before ih =>
    cases before' with
    | nil => exact absurd ((List.cons.inj heq).1 ▸ List.mem_cons_self) h
    | cons y' before' =>
      obtain ⟨rfl, hrest⟩ := List.cons.inj heq
      obtain ⟨rfl, hafter⟩ := ih (fun hx => h (List.mem_cons_of_mem _ hx))
        (fun hx => h' (List.mem_cons_of_mem _ hx)) hrest
      exact ⟨rfl, hafter⟩

/-- The name ends at the first equals sign, and the value at the quote after its own. -/
theorem parameterChars_inj {name name' value value' : String} {rest rest' : List Char}
    (hname : IsParameterName name) (hname' : IsParameterName name') (hvalue : Unquoted value)
    (hvalue' : Unquoted value')
    (h : parameterChars name value rest = parameterChars name' value' rest') :
    (name, value) = (name', value') ∧ rest = rest' := by
  obtain ⟨hn, hafter⟩ := append_cons_inj_of_not_mem hname.no_equals hname'.no_equals h
  obtain ⟨hv, hrest⟩ := append_cons_inj_of_not_mem hvalue hvalue' (List.cons.inj hafter).2
  exact ⟨Prod.ext (String.toList_inj.mp hn) (String.toList_inj.mp hv), hrest⟩

/-- A text spells out no more than one thing. -/
theorem Spells.unique {cs : List Char} {ps ps' : List (String × String)} (h : Spells cs ps)
    (h' : Spells cs ps') : ps = ps' := by
  induction h generalizing ps' with
  | last hname hvalue =>
    generalize hcs : parameterChars _ _ _ = cs' at h'
    cases h' with
    | last hname' hvalue' => rw [(parameterChars_inj hname hname' hvalue hvalue' hcs).1]
    | more hname' hvalue' _ =>
      cases (parameterChars_inj hname hname' hvalue hvalue' hcs).2
  | more hname hvalue _ ih =>
    generalize hcs : parameterChars _ _ _ = cs' at h'
    cases h' with
    | last hname' hvalue' => cases (parameterChars_inj hname hname' hvalue hvalue' hcs).2
    | more hname' hvalue' hrest' =>
      obtain ⟨hfirst, hrest⟩ := parameterChars_inj hname hname' hvalue hvalue' hcs
      obtain rfl := (List.cons.inj (List.cons.inj hrest).2).2
      rw [hfirst, ih hrest']

theorem Authorizes.unique {authorization : String} {ps ps' : List (String × String)}
    (h : Authorizes authorization ps) (h' : Authorizes authorization ps') : ps = ps' := by
  obtain ⟨cs, hcs, hspells⟩ := h
  obtain ⟨cs', hcs', hspells'⟩ := h'
  obtain rfl := List.append_cancel_left (hcs.symm.trans hcs')
  exact hspells.unique hspells'

/-! ## What a session sends -/

namespace Path

/-- The two parameters of a session. -/
def tokenParameters (consumer user : Credentials) : List (String × String) :=
  [("oauth_consumer_key", consumer.token), ("oauth_token", user.token)]

theorem toList_authorizationOf (consumer user : Credentials) :
    (authorizationOf consumer user).toList = "OAuth ".toList ++
      parameterChars "oauth_consumer_key" consumer.token
        (',' :: ' ' :: parameterChars "oauth_token" user.token []) := by
  have hkey : "OAuth oauth_consumer_key=\"".toList =
      "OAuth ".toList ++ ("oauth_consumer_key".toList ++ ['=', '"']) := by decide +kernel
  have htoken : "\", oauth_token=\"".toList =
      '"' :: ',' :: ' ' :: ("oauth_token".toList ++ ['=', '"']) := by decide +kernel
  have hend : "\"".toList = ['"'] := by decide +kernel
  -- about any texts, so that the fixed ones are not taken apart
  have hparts : ∀ {key token ending scheme : String} {name name' : List Char},
      key.toList = scheme.toList ++ (name ++ ['=', '"']) →
      token.toList = '"' :: ',' :: ' ' :: (name' ++ ['=', '"']) → ending.toList = ['"'] →
      (key ++ consumer.token ++ token ++ user.token ++ ending).toList = scheme.toList ++
        (name ++ '=' :: '"' :: (consumer.token.toList ++ '"' :: ',' :: ' ' ::
          (name' ++ '=' :: '"' :: (user.token.toList ++ ['"'])))) := by
    intro key token ending scheme name name' hkey htoken hend
    simp only [String.toList_append, hkey, htoken, hend, List.append_assoc, List.cons_append,
      List.nil_append]
  exact hparts hkey htoken hend

theorem authorizes_authorizationOf {consumer user : Credentials} (hconsumer : Unquoted consumer.token)
    (huser : Unquoted user.token) :
    Authorizes (authorizationOf consumer user) (tokenParameters consumer user) :=
  ⟨_, toList_authorizationOf consumer user,
    .more (by decide +kernel) hconsumer (.last (by decide +kernel) huser)⟩

/-- Its quotes are four and those of the tokens. -/
theorem count_authorizationOf (consumer user : Credentials) :
    (authorizationOf consumer user).toList.count '"' =
      4 + consumer.token.toList.count '"' + user.token.toList.count '"' := by
  have hscheme : "OAuth ".toList.count '"' = 0 := by decide +kernel
  have hkey : "oauth_consumer_key".toList.count '"' = 0 := by decide +kernel
  have htoken : "oauth_token".toList.count '"' = 0 := by decide +kernel
  rw [toList_authorizationOf]
  simp only [parameterChars, List.count_append, List.count_cons, List.count_nil, hscheme, hkey,
    htoken, beq_self_eq_true, if_true]
  simp
  omega

/-- So whether tokens have quotes in them shows. -/
theorem unquoted_of_authorizationOf {consumer user consumer' user' : Credentials}
    (h : authorizationOf consumer' user' = authorizationOf consumer user)
    (hconsumer : Unquoted consumer.token) (huser : Unquoted user.token) :
    Unquoted consumer'.token ∧ Unquoted user'.token := by
  have hcount := congrArg (fun a : String => a.toList.count '"') h
  simp only [count_authorizationOf] at hcount
  rw [List.count_eq_zero.mpr hconsumer, List.count_eq_zero.mpr huser] at hcount
  exact ⟨List.count_eq_zero.mp (by omega), List.count_eq_zero.mp (by omega)⟩

/-- A session whose tokens have no quotes in them: what it sends says its tokens and nothing else, and
sessions that send the same have the same tokens. -/
theorem authorization_identifies {p q : Path} {consumer user : Credentials}
    (h : p.openSession consumer user = .ok q) (hconsumer : Unquoted consumer.token)
    (huser : Unquoted user.token) :
    ∃ authorization, q.session = some authorization ∧
      (∀ ps, Authorizes authorization ps ↔
        ps = [("oauth_consumer_key", consumer.token), ("oauth_token", user.token)]) ∧
      ∀ {p' q' : Path} {consumer' user' : Credentials}, p'.openSession consumer' user' = .ok q' →
        q'.session = some authorization →
          consumer'.token = consumer.token ∧ user'.token = user.token := by
  obtain ⟨-, -, rfl⟩ := openSession_eq_ok_iff.mp h
  have hspells := authorizes_authorizationOf hconsumer huser
  refine ⟨_, rfl, fun ps => ⟨fun hps => hps.unique hspells, ?_⟩, ?_⟩
  · rintro rfl
    exact hspells
  · intro p' q' consumer' user' h' hsame
    obtain ⟨-, -, rfl⟩ := openSession_eq_ok_iff.mp h'
    have hsame := Option.some.inj hsame
    obtain ⟨hconsumer', huser'⟩ := unquoted_of_authorizationOf hsame hconsumer huser
    have hspells' := authorizes_authorizationOf hconsumer' huser'
    rw [hsame] at hspells'
    simpa [tokenParameters] using hspells'.unique hspells

/-- A path to a timeline of one's own. -/
def homeward : Path := { source := { kind := .home, baseUrl := "http://feed" } }

theorem openSession_homeward {consumer user : Credentials}
    (hconsumer : checkCredentials "consumer" consumer = .ok ())
    (huser : checkCredentials "user" user = .ok ()) : homeward.openSession consumer user =
      .ok { homeward with session := some (authorizationOf consumer user) } :=
  openSession_eq_ok_iff.mpr ⟨(checkCredentials_eq_ok_iff _).mp hconsumer,
    (checkCredentials_eq_ok_iff _).mp huser, rfl⟩

/-- Tokens with all the marks of an authorization in them but its quotes. -/
theorem marked_authorization_identifies :
    ∃ q, homeward.openSession ⟨"a, oauth_token=b", "s"⟩ ⟨"c\\", "s"⟩ = .ok q ∧
      Unquoted "a, oauth_token=b" ∧ Unquoted "c\\" ∧
      ∃ authorization, q.session = some authorization ∧
        Authorizes authorization
          [("oauth_consumer_key", "a, oauth_token=b"), ("oauth_token", "c\\")] := by
  have hopen : homeward.openSession ⟨"a, oauth_token=b", "s"⟩ ⟨"c\\", "s"⟩ = .ok _ :=
    openSession_homeward (by rfl) (by rfl)
  have hconsumer : Unquoted "a, oauth_token=b" := by decide +kernel
  have huser : Unquoted "c\\" := by decide +kernel
  obtain ⟨authorization, hsession, hspells, -⟩ := authorization_identifies hopen hconsumer huser
  exact ⟨_, hopen, hconsumer, huser, authorization, hsession, (hspells _).mpr rfl⟩

/-- A token with a quote in it is accepted all the same, ends its own parameter and brings in another:
here two users under two consumers send the same, in which a third token stands. -/
theorem forged_authorization :
    ∃ q, homeward.openSession ⟨"a\", oauth_token=\"b", "s"⟩ ⟨"c", "s"⟩ = .ok q ∧
      homeward.openSession ⟨"a", "s"⟩ ⟨"b\", oauth_token=\"c", "s"⟩ = .ok q ∧
      ∃ authorization, q.session = some authorization ∧ Authorizes authorization
        [("oauth_consumer_key", "a"), ("oauth_token", "b"), ("oauth_token", "c")] := by
  refine ⟨_, openSession_homeward (by rfl) (by rfl), openSession_homeward (by rfl) (by rfl), _, rfl,
    parameterChars "oauth_consumer_key" "a" (',' :: ' ' :: parameterChars "oauth_token" "b"
      (',' :: ' ' :: parameterChars "oauth_token" "c" [])), by decide +kernel, ?_⟩
  exact .more (by decide +kernel) (by decide +kernel)
    (.more (by decide +kernel) (by decide +kernel) (.last (by decide +kernel) (by decide +kernel)))

end Path
end FeedPoller.Feed
