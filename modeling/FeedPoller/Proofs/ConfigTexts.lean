import FeedPoller.Config.Load
import FeedPoller.Proofs.JsonTexts
import FeedPoller.Proofs.RecordFields
import FeedPoller.Proofs.TomlDocuments

/-! Configurations written down and loaded again, as TOML and as JSON. Main statement: each text is
loaded as the configuration it was made of, under its own extension and under one that names
neither format (`Config.parse_texts`). -/

namespace FeedPoller

open Json (Value Fields)

/-! ## Fields of the sections -/

/-- The fields before the query, in order of names. -/
def PollSection.before (s : PollSection) : Fields := [
  ("auto_delay", .bool s.autoDelay),
  ("enabled", .bool s.enabled),
  ("interval_secs", .nat s.intervalSecs),
  ("max_history", .nat s.maxHistory)]

/-- The fields after the query. -/
def PollSection.after (nulls : String → Bool) (s : PollSection) : Fields :=
  optionField nulls "rate_limit" .nat s.rateLimit ++
    (optionField nulls "rate_limit_period" .nat s.ratePeriod ++
      (optionField nulls "rate_window_secs" .nat s.rateWindowSecs ++
        [("skip_duplicates", .bool s.skipDuplicates)]))

def PollSection.fields (nulls : String → Bool) (s : PollSection) : Fields :=
  s.before ++ ("query", .object s.query) :: s.after nulls

def SourceSection.fields (nulls : String → Bool) (s : SourceSection) : Fields :=
  ("base_url", .str s.baseUrl) :: ("path", .str s.path) ::
    (optionField nulls "search_url" .str s.searchUrl ++ [("timeout_secs", .nat s.timeoutSecs)])

def CredentialsSection.fields (nulls : String → Bool) (s : CredentialsSection) : Fields :=
  optionField nulls "consumer_secret" .str s.consumerSecret ++
    (optionField nulls "consumer_token" .str s.consumerToken ++
      (optionField nulls "user_secret" .str s.userSecret ++
        optionField nulls "user_token" .str s.userToken))

def ServerSection.fields (s : ServerSection) : Fields := [("bind", .str s.bind)]

namespace Config

def fields (nulls : String → Bool) (c : Config) : Fields := [
  ("credentials", .object (c.credentials.fields nulls)),
  ("poll", .object (c.poll.fields nulls)),
  ("server", .object c.server.fields),
  ("source", .object (c.source.fields nulls))]

/-- The configuration as JSON. -/
def jsonText (nulls : String → Bool) (c : Config) : String := (Value.object (c.fields nulls)).text

/-- The configuration as TOML, one table for each section and one for the query, without nulls. -/
def tomlText (c : Config) : String :=
  let absent := fun _ => false
  String.ofList (
    Toml.tableText [] "credentials" (c.credentials.fields absent) ++
    (Toml.tableText [] "poll" (c.poll.before ++ c.poll.after absent) ++
    (Toml.tableText ["poll"] "query" c.poll.query ++
    (Toml.tableText [] "server" c.server.fields ++
    Toml.tableText [] "source" (c.source.fields absent)))))

/-- What both formats can hold: integers of 64 signed bits, and in the query texts, truth values and
such integers, in lists and objects no deeper than TOML allows. -/
structure Writable (c : Config) : Prop where
  maxHistory : c.poll.maxHistory < 0x8000000000000000
  intervalSecs : c.poll.intervalSecs < 0x8000000000000000
  rateLimit : ∀ n ∈ c.poll.rateLimit, n < 0x100000000
  ratePeriod : ∀ n ∈ c.poll.ratePeriod, n < 0x100000000
  rateWindowSecs : ∀ n ∈ c.poll.rateWindowSecs, n < 0x8000000000000000
  timeoutSecs : c.source.timeoutSecs < 0x8000000000000000
  query : Fields.Portable false Toml.maxDepth c.poll.query

end Config

/-! ## Names -/

section

variable {nulls : String → Bool}

theorem PollSection.names_after (s : PollSection) : ((s.after nulls).map Prod.fst).Sublist
    ["rate_limit", "rate_limit_period", "rate_window_secs", "skip_duplicates"] :=
  names_optionField_append _ _ _ (names_optionField_append _ _ _ (names_optionField_append _ _ _
    (.refl _)))

theorem PollSection.ascending_fields (s : PollSection) : Named.Ascending (s.fields nulls) := by
  refine Named.ascending_of_names (["auto_delay", "enabled", "interval_secs", "max_history"] ++
    "query" :: ["rate_limit", "rate_limit_period", "rate_window_secs", "skip_duplicates"]) ?_
    (by decide)
  rw [fields, List.map_append]
  exact (List.Sublist.refl _).append (s.names_after.cons_cons _)

theorem PollSection.ascending_lines (s : PollSection) :
    Named.Ascending (s.before ++ s.after nulls) :=
  s.ascending_fields.sublist ((List.Sublist.refl _).append (List.sublist_cons_self _ _))

theorem SourceSection.ascending_fields (s : SourceSection) : Named.Ascending (s.fields nulls) := by
  refine Named.ascending_of_names ["base_url", "path", "search_url", "timeout_secs"] ?_ (by decide)
  exact ((names_optionField_append _ _ _ (.refl _)).cons_cons _).cons_cons _

theorem CredentialsSection.ascending_fields (s : CredentialsSection) :
    Named.Ascending (s.fields nulls) := by
  refine Named.ascending_of_names ["consumer_secret", "consumer_token", "user_secret", "user_token"]
    ?_ (by decide)
  exact names_optionField_append _ _ _ (names_optionField_append _ _ _
    (names_optionField_append _ _ _ (names_optionField _ _ _)))

theorem ServerSection.ascending_fields (s : ServerSection) : Named.Ascending s.fields :=
  List.pairwise_singleton ..

theorem Config.ascending_fields (c : Config) : Named.Ascending (c.fields nulls) :=
  Named.ascending_of_names ["credentials", "poll", "server", "source"] (.refl _) (by decide)

/-! ## Values -/

variable {depth : Nat}

namespace Config.Writable

variable {c : Config} {allowed : Bool}

theorem portable_before (h : c.Writable) : Fields.AllPortable allowed depth c.poll.before := by
  simp only [Fields.AllPortable, PollSection.before, List.forall_mem_cons]
  exact ⟨.bool _, .bool _, portable_nat h.intervalSecs _, portable_nat h.maxHistory _, nofun⟩

theorem portable_after (h : c.Writable) (hnulls : ∀ name, nulls name = true → allowed = true) :
    Fields.AllPortable allowed depth (c.poll.after nulls) := by
  have hlimit : Fields.AllPortable allowed depth
      (optionField nulls "rate_limit" .nat c.poll.rateLimit) :=
    portable_optionField (hnulls _) fun n hn =>
      portable_nat (Nat.lt_trans (h.rateLimit n hn) (by decide)) _
  have hperiod : Fields.AllPortable allowed depth
      (optionField nulls "rate_limit_period" .nat c.poll.ratePeriod) :=
    portable_optionField (hnulls _) fun n hn =>
      portable_nat (Nat.lt_trans (h.ratePeriod n hn) (by decide)) _
  have hwindow : Fields.AllPortable allowed depth
      (optionField nulls "rate_window_secs" .nat c.poll.rateWindowSecs) :=
    portable_optionField (hnulls _) fun n hn => portable_nat (h.rateWindowSecs n hn) _
  have hskip : Fields.AllPortable allowed depth
      [("skip_duplicates", .bool c.poll.skipDuplicates)] :=
    List.forall_mem_singleton.mpr (.bool _)
  exact hlimit.append (hperiod.append (hwindow.append hskip))

theorem portable_lines (h : c.Writable) (hnulls : ∀ name, nulls name = true → allowed = true) :
    Fields.AllPortable allowed depth (c.poll.before ++ c.poll.after nulls) :=
  h.portable_before.append (h.portable_after hnulls)

theorem portable_source (h : c.Writable) (hnulls : ∀ name, nulls name = true → allowed = true) :
    Fields.AllPortable allowed depth (c.source.fields nulls) := by
  have hsearch : Fields.AllPortable allowed depth
      (optionField nulls "search_url" .str c.source.searchUrl) :=
    portable_optionField (hnulls _) fun s _ => .str s
  have htimeout : Fields.AllPortable allowed depth [("timeout_secs", .nat c.source.timeoutSecs)] :=
    List.forall_mem_singleton.mpr (portable_nat h.timeoutSecs _)
  exact List.forall_mem_cons.mpr ⟨.str _,
    List.forall_mem_cons.mpr ⟨.str _, hsearch.append htimeout⟩⟩

end Config.Writable

theorem portable_credentials {allowed : Bool} (s : CredentialsSection)
    (hnulls : ∀ name, nulls name = true → allowed = true) :
    Fields.AllPortable allowed depth (s.fields nulls) := by
  have hfield : ∀ name o, Fields.AllPortable allowed depth (optionField nulls name .str o) :=
    fun _ _ => portable_optionField (hnulls _) fun s _ => .str s
  exact (hfield _ _).append ((hfield _ _).append ((hfield _ _).append (hfield _ _)))

theorem portable_server {allowed : Bool} (s : ServerSection) :
    Fields.AllPortable allowed depth s.fields :=
  List.forall_mem_singleton.mpr (.str _)

/-- The whole configuration as one object. -/
theorem Config.Writable.portable {c : Config} (h : c.Writable) :
    (Value.object (c.fields nulls)).Portable true Json.maxDepth := by
  have hnulls : ∀ name, nulls name = true → true = true := fun _ _ => rfl
  have hquery : (Value.object c.poll.query).Portable true (Toml.maxDepth + 1) :=
    (Value.Portable.object h.query.names h.query.values).mono (fun _ => rfl) (Nat.le_refl _)
  have hpoll : Fields.AllPortable true (Toml.maxDepth + 1) (c.poll.fields nulls) :=
    h.portable_before.append (List.forall_mem_cons.mpr ⟨hquery, h.portable_after hnulls⟩)
  have hsections : Fields.AllPortable true (Toml.maxDepth + 2) (c.fields nulls) := by
    simp only [Fields.AllPortable, Config.fields, List.forall_mem_cons]
    exact ⟨.object c.credentials.ascending_fields (portable_credentials _ hnulls),
      .object c.poll.ascending_fields hpoll,
      .object c.server.ascending_fields (portable_server _),
      .object c.source.ascending_fields (h.portable_source hnulls), nofun⟩
  exact (Value.Portable.object c.ascending_fields hsections).mono id (by decide)

end

/-! ## Sections read back -/

section

open Node (Loads natBelow_nat)

variable {nulls : String → Bool}

/-- What has 64 signed bits has 64 bits. -/
theorem lt_word {n : Nat} (h : n < 0x8000000000000000) : n < 0x10000000000000000 :=
  Nat.lt_trans h (by decide)

namespace Config.Writable

variable {c : Config}

theorem loads_before (h : c.Writable) (r : PollSection) :
    Loads PollSection.slots c.poll.before r { r with
      autoDelay := c.poll.autoDelay
      enabled := c.poll.enabled
      intervalSecs := c.poll.intervalSecs
      maxHistory := c.poll.maxHistory } :=
  (Loads.field (fun (b : Bool) (r : PollSection) => { r with autoDelay := b }) rfl rfl _).append <|
  (Loads.field (fun (b : Bool) (r : PollSection) => { r with enabled := b }) rfl rfl _).append <|
  (Loads.field (fun (n : Nat) (r : PollSection) => { r with intervalSecs := n }) rfl
    (natBelow_nat (lt_word h.intervalSecs)) _).append <|
  Loads.field (fun (n : Nat) (r : PollSection) => { r with maxHistory := n }) rfl
    (natBelow_nat (lt_word h.maxHistory)) _

theorem loads_query (h : c.Writable) (r : PollSection) :
    Loads PollSection.slots [("query", .object c.poll.query)] r { r with query := c.poll.query } :=
  Loads.field (fun (q : Fields) (r : PollSection) => { r with query := q }) rfl
    h.query.fields?_ofFields r

theorem loads_after (h : c.Writable) {r : PollSection} (hlimit : r.rateLimit = none)
    (hperiod : r.ratePeriod = none) (hwindow : r.rateWindowSecs = none) :
    Loads PollSection.slots (c.poll.after nulls) r { r with
      rateLimit := c.poll.rateLimit
      ratePeriod := c.poll.ratePeriod
      rateWindowSecs := c.poll.rateWindowSecs
      skipDuplicates := c.poll.skipDuplicates } := by
  have hsecs : ∀ n ∈ c.poll.rateWindowSecs, n < 0x10000000000000000 := fun n hn =>
    lt_word (h.rateWindowSecs n hn)
  refine (Loads.optionNat (fun o (r : PollSection) => { r with rateLimit := o }) rfl h.rateLimit
      ?_).append <|
    (Loads.optionNat (fun o (r : PollSection) => { r with ratePeriod := o }) rfl h.ratePeriod
      ?_).append <|
    (Loads.optionNat (fun o (r : PollSection) => { r with rateWindowSecs := o }) rfl hsecs
      ?_).append <|
    Loads.field (fun (b : Bool) (r : PollSection) => { r with skipDuplicates := b }) rfl rfl _
  -- an option that is left out or null keeps what was there before
  · rw [← hlimit]
  · rw [← hperiod]
  · rw [← hwindow]

theorem loads_poll (h : c.Writable) (nulls : String → Bool) :
    Loads PollSection.slots (c.poll.fields nulls) {} c.poll :=
  (h.loads_before _).append ((h.loads_query _).append (h.loads_after rfl rfl rfl))

theorem loads_source (h : c.Writable) (nulls : String → Bool) :
    Loads SourceSection.slots (c.source.fields nulls) {} c.source :=
  (Loads.field (fun (s : String) (r : SourceSection) => { r with baseUrl := s }) rfl rfl _).append <|
  (Loads.field (fun (s : String) (r : SourceSection) => { r with path := s }) rfl rfl _).append <|
  (Loads.optionStr (fun o (r : SourceSection) => { r with searchUrl := o }) rfl rfl).append <|
  Loads.field (fun (n : Nat) (r : SourceSection) => { r with timeoutSecs := n }) rfl
    (natBelow_nat (lt_word h.timeoutSecs)) _

end Config.Writable

theorem CredentialsSection.loads_fields (s : CredentialsSection) (nulls : String → Bool) :
    Loads slots (s.fields nulls) {} s :=
  (Loads.optionStr (fun o (r : CredentialsSection) => { r with consumerSecret := o }) rfl
    rfl).append <|
  (Loads.optionStr (fun o (r : CredentialsSection) => { r with consumerToken := o }) rfl
    rfl).append <|
  (Loads.optionStr (fun o (r : CredentialsSection) => { r with userSecret := o }) rfl rfl).append <|
  Loads.optionStr (fun o (r : CredentialsSection) => { r with userToken := o }) rfl rfl

theorem ServerSection.loads_fields (s : ServerSection) : Loads slots s.fields {} s :=
  Loads.field (fun (bind : String) (r : ServerSection) => { r with bind }) rfl rfl _

/-- The tree of a configuration is read as the configuration, with nulls or without. -/
theorem Config.Writable.ofNode_fields {c : Config} (h : c.Writable) (openEnded : Bool) :
    Config.ofNode openEnded (.ofValue (.object (c.fields nulls))) = .ok c := by
  have hcredentials := (c.credentials.loads_fields nulls).record c.credentials.ascending_fields
    openEnded
  have hpoll := (h.loads_poll nulls).record c.poll.ascending_fields openEnded
  have hserver := c.server.loads_fields.record c.server.ascending_fields openEnded
  have hsource := (h.loads_source nulls).record c.source.ascending_fields openEnded
  have hall : Loads (Config.slots openEnded) (c.fields nulls) {} c :=
    (Loads.field (fun s (r : Config) => { r with credentials := s }) rfl hcredentials _).append <|
    (Loads.field (fun s (r : Config) => { r with poll := s }) rfl hpoll _).append <|
    (Loads.field (fun s (r : Config) => { r with server := s }) rfl hserver _).append <|
    Loads.field (fun s (r : Config) => { r with source := s }) rfl hsource _
  exact hall.record c.ascending_fields openEnded

end

/-! ## The TOML document -/

section

open Toml (Reads StandsAt headed leaves leaves_append tableText)

variable {credentials before after query server source : Fields}

/-- What the tables of a configuration come to, the query in its place among the poll fields. -/
theorem Toml.reads_sections (hcredentials : credentials.Portable false Toml.maxDepth)
    (hlines : (before ++ after).Portable false Toml.maxDepth)
    (hbefore : ∀ e ∈ leaves before, e.1 < "query") (hafter : ∀ e ∈ leaves after, "query" < e.1)
    (hquery : query.Portable false Toml.maxDepth) (hserver : server.Portable false Toml.maxDepth)
    (hsource : source.Portable false Toml.maxDepth) :
    Reads (tableText [] "credentials" credentials ++ (tableText [] "poll" (before ++ after) ++
        (tableText ["poll"] "query" query ++ (tableText [] "server" server ++
          tableText [] "source" source)))) {}
      ⟨[("credentials", headed credentials),
        ("poll", .table .header (leaves before ++ ("query", headed query) :: leaves after)),
        ("server", headed server), ("source", headed source)], ["source"]⟩ := by
  -- the header of the query reaches back into the table of the polls
  have hplace : StandsAt ["poll"] fun sub =>
      [("credentials", headed credentials), ("poll", .table .header sub)] :=
    StandsAt.root.inside "poll" [("credentials", headed credentials)]
  have hnew : Named.get? "query" (leaves (before ++ after)) = none := by
    rw [leaves_append]
    refine Named.get?_eq_none_of_ne fun e he => ?_
    exact (List.mem_append.mp he).elim (fun he => String.ne_of_lt (hbefore e he))
      fun he => (String.ne_of_lt (hafter e he)).symm
  have hput : (leaves (before ++ after)).insert "query" (headed query) =
      leaves before ++ ("query", headed query) :: leaves after := by
    rw [leaves_append, Named.insert_between _ hbefore hafter]
  have hpoll : Reads (tableText ["poll"] "query" query)
      ⟨[("credentials", headed credentials), ("poll", headed (before ++ after))], ["poll"]⟩
      ⟨[("credentials", headed credentials),
        ("poll", .table .header (leaves before ++ ("query", headed query) :: leaves after))],
        ["poll", "query"]⟩ := by
    rw [← hput]
    exact .table hplace hnew hquery
  exact (Reads.rootTable rfl hcredentials).append <| (Reads.rootTable rfl hlines).append <|
    hpoll.append <| (Reads.rootTable rfl hserver).append <| Reads.rootTable rfl hsource

theorem PollSection.around_query (nulls : String → Bool) (s : PollSection) :
    (∀ e ∈ leaves s.before, e.1 < "query") ∧ ∀ e ∈ leaves (s.after nulls), "query" < e.1 := by
  have hnames : Named.Ascending
      (leaves s.before ++ leaves (("query", .object s.query) :: s.after nulls)) := by
    rw [← leaves_append]
    exact Toml.ascending_leaves.mpr s.ascending_fields
  have hafter := (List.pairwise_append.mp hnames).2.1
  exact ⟨hnames.lt_of_append_cons, (List.pairwise_cons.mp hafter).1⟩

theorem Config.Writable.parse_tomlText {c : Config} (h : c.Writable) :
    Toml.parse c.tomlText = some (.ofValue (.object (c.fields fun _ => false))) := by
  have habsent : ∀ name : String, false = true → false = true := fun _ => id
  obtain ⟨hbefore, hafter⟩ := c.poll.around_query fun _ => false
  have hreads := Toml.reads_sections
    ⟨c.credentials.ascending_fields, portable_credentials _ habsent⟩
    ⟨c.poll.ascending_lines, h.portable_lines habsent⟩ hbefore hafter h.query
    ⟨c.server.ascending_fields, portable_server _⟩
    ⟨c.source.ascending_fields, h.portable_source habsent⟩
  rw [tomlText, hreads.parse (by simp [tableText])]
  simp only [Toml.entryNodes, Toml.Entry.node, headed, Toml.entryNodes_append, Toml.entryNodes_leaves,
    Config.fields, PollSection.fields, Node.ofValue, Node.ofFields, Node.ofFields_append]

theorem Config.head?_tomlText (c : Config) : c.tomlText.toList.head? = some '[' := by
  rw [tomlText, String.toList_ofList]
  rfl

theorem Config.head?_jsonText (nulls : String → Bool) (c : Config) :
    (c.jsonText nulls).toList.head? = some '\x7b' := by
  rw [jsonText, Value.text, String.toList_ofList]
  rfl

end

/-! ## Loading -/

namespace Config

/-- A text that begins with no blank looks like JSON just when it begins with a brace. -/
theorem looksLikeJson_eq {text : String} {c : Char} (h : text.toList.head? = some c)
    (hc : Text.isBlank c = false) : looksLikeJson text = (c == '\x7b') := by
  obtain ⟨cs, hcs⟩ := List.head?_eq_some_iff.mp h
  simp [looksLikeJson, hcs, hc]

/-- Of a configuration that both formats can hold, the TOML text is loaded as that configuration
under every extension but JSON's, and the JSON text under every extension but TOML's; so both give
the same settings and the same resolved credentials. -/
theorem parse_texts {c : Config} (h : c.Writable) (nulls : String → Bool) :
    (∀ extension, extension ≠ "json" → parse c.tomlText extension = .ok c) ∧
    (∀ extension, extension ≠ "toml" → parse (c.jsonText nulls) extension = .ok c) ∧
    ∀ {a b : Config} {e e' : String}, e ≠ "json" → e' ≠ "toml" → parse c.tomlText e = .ok a →
      parse (c.jsonText nulls) e' = .ok b → a.settings = b.settings ∧
        ∀ env, a.credentials.resolve env = b.credentials.resolve env := by
  have htoml : ∀ extension, extension ≠ "json" → parse c.tomlText extension = .ok c := by
    intro extension hextension
    have hlooks : looksLikeJson c.tomlText = false := looksLikeJson_eq c.head?_tomlText (by decide)
    simp [parse, hextension, hlooks, h.parse_tomlText, h.ofNode_fields]
  have hjson : ∀ extension, extension ≠ "toml" → parse (c.jsonText nulls) extension = .ok c := by
    intro extension hextension
    have hlooks : looksLikeJson (c.jsonText nulls) = true :=
      looksLikeJson_eq (c.head?_jsonText nulls) (by decide)
    have hdecode : Json.decode (Config.ofNode false) (c.jsonText nulls) = .ok c := by
      rw [jsonText, h.portable.decode_text, h.ofNode_fields]
    simp [parse, hextension, hlooks, hdecode]
  refine ⟨htoml, hjson, fun he he' ha hb => ?_⟩
  rw [htoml _ he] at ha
  rw [hjson _ he'] at hb
  obtain rfl := Except.ok.inj ha
  obtain rfl := Except.ok.inj hb
  exact ⟨rfl, fun _ => rfl⟩

/-- Escapes, a key that is empty and one that cannot stand bare, integers at both ends, and
containers in containers. -/
def mixed : Config where
  poll := {
    maxHistory := 3
    rateLimit := some 150
    intervalSecs := 0x7fffffffffffffff
    query := [
      ("", .str "a \"quoted\" \\ line\nand \x7f"),
      ("count", .int (-0x8000000000000000)),
      ("since id", .list [.bool true, .object [("k", .list []), ("ü", .object [])]])] }
  source := { path := "search", searchUrl := some "http://127.0.0.1:9001/" }
  credentials := { userToken := some "${USER_TOKEN}", userSecret := some "" }

theorem writable_mixed : mixed.Writable where
  maxHistory := by decide
  intervalSecs := by decide
  rateLimit := by decide
  ratePeriod := by decide
  rateWindowSecs := by decide
  timeoutSecs := by decide
  query := {
    names := by
      unfold Named.Ascending
      decide
    values := by
      have hinner : Fields.AllPortable false 78 [("k", .list []), ("ü", .object [])] := by
        simp only [Fields.AllPortable, List.forall_mem_cons]
        exact ⟨.list nofun, .object .nil nofun, nofun⟩
      have hitems : ∀ v ∈ [Value.bool true, .object [("k", .list []), ("ü", .object [])]],
          v.Portable false 79 := by
        simp only [List.forall_mem_cons]
        exact ⟨.bool _, .object (by unfold Named.Ascending; decide) hinner, nofun⟩
      simp only [Fields.AllPortable, mixed, List.forall_mem_cons]
      exact ⟨.str _, .int (by decide), .list hitems, nofun⟩ }

theorem mixed_parse_texts : mixed.Writable ∧
    parse mixed.tomlText "" = .ok mixed ∧ parse (mixed.jsonText fun _ => false) "conf" = .ok mixed ∧
    parse (mixed.jsonText fun name => name == "rate_limit_period") "json" = .ok mixed :=
  have h := writable_mixed
  ⟨h, (parse_texts h fun _ => false).1 "" (by decide),
    (parse_texts h fun _ => false).2.1 "conf" (by decide),
    (parse_texts h fun name => name == "rate_limit_period").2.1 "json" (by decide)⟩

end Config

end FeedPoller
