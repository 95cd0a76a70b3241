import FeedPoller.Feed.Transport
import Mathlib.Data.List.Infix

/-! The address that is asked and what is made of the reply. An address ends in the name of a format; in
which format a reply is taken shows in what comes of it, whatever carries it. Main statement: a read is
taken in the format that its address ends in, and so is an update on every path but a search; and that
update goes to the address of the feed, wherever its search may be (`endpoint_agrees`). -/

namespace FeedPoller.Feed

/-! ## Formats -/

inductive Format where
  | xml
  | json
  deriving DecidableEq, Repr

namespace Format

def ending : Format → String
  | .xml => ".xml"
  | .json => ".json"

/-- The items of a reply to a read. -/
def items : Format → String → Except FetchFailure (List Item)
  | .xml => statusesOfXml
  | .json => resultsOfJson

/-- The item of a reply to an update. One that came in JSON would be a search result. -/
def item : Format → String → Except FetchFailure Item
  | .xml => statusOfXml
  | .json => fun body =>
    match Json.parse body with
    | .error _ => .error ⟨"parsing search json", some "malformed json"⟩
    | .ok v => resultItem v

/-- Whether an address ends in the name of the format. -/
def Ends (f : Format) (url : String) : Prop := f.ending.toList <:+ url.toList

/-- An address ends in one name only: neither name ends in the other. -/
theorem ends_append_iff {f g : Format} {url : String} : f.Ends (url ++ g.ending) ↔ f = g := by
  have hapart : ∀ f g : Format, f.ending.toList <:+ g.ending.toList → f = g := by
    intro f g h
    cases f <;> cases g <;> first | rfl | exact absurd h (by decide +kernel)
  rw [Ends, String.toList_append]
  constructor
  · intro h
    obtain hfg | hgf := List.suffix_or_suffix_of_suffix h (List.suffix_append ..)
    · exact hapart f g hfg
    · exact (hapart g f hgf).symm
  · rintro rfl
    exact List.suffix_append ..

/-- The formats differ on an empty list … -/
theorem isOk_items_nil (f : Format) : (f.items "").isOk = (f == .xml) := by
  cases f <;> decide +kernel

/-- … and on a status that is alone. -/
theorem isOk_item_status (f : Format) :
    (f.item "<status><id>5</id></status>").isOk = (f == .xml) := by
  cases f <;> decide +kernel

theorem eq_of_beq_xml {f g : Format} (h : (f == .xml) = (g == .xml)) : f = g := by
  cases f <;> cases g <;> first | rfl | cases h

end Format

/-- The format of the lists that are read from a source. -/
def Source.format (s : Source) : Format := if s.kind = .search then .json else .xml

theorem Source.ending_eq (s : Source) : s.kind.ending = s.format.ending := by
  unfold Source.format
  cases s.kind <;> rfl

theorem Source.items_eq (s : Source) (body : String) : s.items body = s.format.items body := by
  unfold Source.items Source.format
  split <;> rfl

namespace Path

variable {p : Path} {cursor : Option String} {params headers : Json.Fields} {payload : Json.Value}
  {r : Http.Request}

/-! ## Reads -/

/-- The reply to a read is taken in a format. -/
def ReadsAs (p : Path) (cursor : Option String) (params : Json.Fields) (f : Format) : Prop :=
  ∀ now t r reply, p.readRequest cursor params = some r → (Transport.send r t).1 = .ok reply →
    reply.isOk = true → (p.read now cursor params t).1 = (f.items reply.body).mapError .fetch

theorem readsAs_format (p : Path) (cursor : Option String) (params : Json.Fields) :
    p.ReadsAs cursor params p.source.format := by
  intro now t r reply hr hsend hok
  have hrequest : (p.afterRead now).readRequest cursor params = some r := hr
  unfold read
  dsimp only
  rw [hrequest]
  dsimp only
  rw [hsend]
  dsimp only
  rw [readReply, if_pos hok, show (p.afterRead now).source = p.source from rfl, Source.items_eq]
  cases p.source.format.items reply.body <;> rfl

/-- In that one only, as an empty reply would show. -/
theorem eq_of_readsAs {f g : Format} (hr : p.readRequest cursor params = some r)
    (hf : p.ReadsAs cursor params f) (hg : p.ReadsAs cursor params g) : f = g := by
  let t : Transport := .prepared ⟨[{ status := 200 }], []⟩
  have hreply := (hf ⟨0⟩ t r _ hr rfl rfl).symm.trans (hg ⟨0⟩ t r _ hr rfl rfl)
  have hisOk : ∀ e : Except FetchFailure (List Item), (e.mapError ReadFailure.fetch).isOk = e.isOk :=
    fun e => by cases e <;> rfl
  apply Format.eq_of_beq_xml
  rw [← Format.isOk_items_nil, ← Format.isOk_items_nil, ← hisOk, hreply, hisOk]

/-! ## Updates -/

/-- The reply to an update is taken in a format. -/
def UpdatesAs (p : Path) (payload : Json.Value) (headers : Json.Fields) (f : Format) : Prop :=
  ∀ t r reply, p.updateRequest payload headers = .ok r → (Transport.send r t).1 = .ok reply →
    reply.isOk = true → (p.update payload headers t).1 = some <$> f.item reply.body

theorem updatesAs_xml (p : Path) (payload : Json.Value) (headers : Json.Fields) :
    p.UpdatesAs payload headers .xml := by
  intro t r reply hr hsend hok
  unfold update
  rw [hr]
  dsimp only
  rw [hsend]
  exact if_pos hok

theorem eq_of_updatesAs {f g : Format} (hr : p.updateRequest payload headers = .ok r)
    (hf : p.UpdatesAs payload headers f) (hg : p.UpdatesAs payload headers g) : f = g := by
  let t : Transport := .prepared ⟨[{ status := 200, body := "<status><id>5</id></status>" }], []⟩
  have hreply := (hf t r _ hr rfl rfl).symm.trans (hg t r _ hr rfl rfl)
  have hisOk : ∀ e : Except FetchFailure Item, (some <$> e).isOk = e.isOk := fun e => by
    cases e <;> rfl
  apply Format.eq_of_beq_xml
  rw [← Format.isOk_item_status, ← Format.isOk_item_status, ← hisOk, hreply, hisOk]

/-- Where updates go: their address comes after the root of the source, whatever they delete. -/
theorem url_of_updateRequest (h : p.updateRequest payload headers = .ok r) :
    ∃ stream, r.url = p.source.url stream := by
  by_cases hkind : p.source.kind = .delete
  · obtain ⟨v, -, -, rfl⟩ := updateRequest_of_delete hkind h
    exact ⟨_, rfl⟩
  · rw [updateRequest_of_ne hkind] at h
    cases h
    exact ⟨_, rfl⟩

/-- Only a search looks at the address for searches. -/
theorem updateRequest_searchUrl (hkind : p.source.kind ≠ .search) (searchUrl : Option String) :
    { p with source := { p.source with searchUrl } }.updateRequest payload headers =
      p.updateRequest payload headers := by
  have hurl : ∀ stream, { p.source with searchUrl }.url stream = p.source.url stream := by
    intro stream
    rw [Source.url_eq, Source.url_eq, Source.root_of_ne hkind,
      Source.root_of_ne (s := { p.source with searchUrl }) hkind]
  unfold updateRequest
  simp only [hurl]

/-! ## Both agree -/

/-- Whether an address is below another. -/
def Under (base url : String) : Prop := ∃ rest, url = Source.withSlash base ++ rest

/-- Each read is taken in the format that was asked for, and so is each update, unless it is made on a
search; the others do not look at the address for searches. -/
theorem endpoint_agrees (p : Path) :
    (∀ cursor params r, p.readRequest cursor params = some r →
      ∀ f : Format, f.Ends r.url ↔ p.ReadsAs cursor params f) ∧
    (p.source.kind ≠ .search → ∀ payload headers r, p.updateRequest payload headers = .ok r →
      (∀ f : Format, f.Ends r.url ↔ p.UpdatesAs payload headers f) ∧
      Under p.source.baseUrl r.url ∧
      ∀ searchUrl : Option String,
        { p with source := { p.source with searchUrl } }.updateRequest payload headers = .ok r) := by
  constructor
  · intro cursor params r hr f
    obtain ⟨stream, -, rfl⟩ := Option.map_eq_some_iff.mp hr
    rw [Source.url_eq, Source.ending_eq, Format.ends_append_iff]
    constructor
    · rintro rfl
      exact readsAs_format p cursor params
    · exact fun hf => eq_of_readsAs hr hf (readsAs_format p cursor params)
  · intro hkind payload headers r hr
    have hformat : p.source.format = .xml := if_neg hkind
    obtain ⟨stream, hurl⟩ := url_of_updateRequest hr
    refine ⟨fun f => ?_, ⟨stream ++ p.source.kind.ending, ?_⟩, fun searchUrl => ?_⟩
    · rw [hurl, Source.url_eq, Source.ending_eq, hformat, Format.ends_append_iff]
      constructor
      · rintro rfl
        exact updatesAs_xml p payload headers
      · exact fun hf => eq_of_updatesAs hr hf (updatesAs_xml p payload headers)
    · rw [hurl, Source.url_eq, Source.root_of_ne hkind, String.append_assoc]
    · rw [updateRequest_searchUrl hkind, hr]

/-- A path of a feed whose search lives on its own host. -/
def onTwoHosts (kind : Kind) : Path :=
  { source := { kind, baseUrl := "http://api.local/1/", searchUrl := some "http://search.local/" } }

/-- A search that is read, and a status that is deleted where searches are elsewhere. -/
theorem onTwoHosts_agrees :
    (∀ f : Format, f.Ends "http://search.local/search.json" ↔
      (onTwoHosts .search).ReadsAs none [] f) ∧
    (onTwoHosts .delete).source.kind ≠ .search ∧
    (∀ f : Format, f.Ends "http://api.local/1/statuses/destroy/5.xml" ↔
      (onTwoHosts .delete).UpdatesAs .null [("data_id", .str "5")] f) ∧
    Under "http://api.local/1/" "http://api.local/1/statuses/destroy/5.xml" := by
  have hsearch : (onTwoHosts .search).readRequest none [] =
      some ⟨.get, "http://search.local/search.json", [], none⟩ := by decide +kernel
  have hdelete : (onTwoHosts .delete).updateRequest .null [("data_id", .str "5")] =
      .ok ⟨.post, "http://api.local/1/statuses/destroy/5.xml",
        [("status", "null"), ("trim_user", "1")], none⟩ := by decide +kernel
  have hkind : (onTwoHosts .delete).source.kind ≠ .search := by decide
  obtain ⟨hupdates, hunder, -⟩ := (endpoint_agrees (onTwoHosts .delete)).2 hkind _ _ _ hdelete
  exact ⟨(endpoint_agrees (onTwoHosts .search)).1 _ _ _ hsearch, hkind, hupdates, hunder⟩

/-! ## Updates on a search

They go where searches go, in the ending too, but what is made of the reply is the same as anywhere. -/

theorem json_of_search_update (hkind : p.source.kind = .search)
    (h : p.updateRequest payload headers = .ok r) :
    r.url = p.source.root ++ "statuses/update" ++ Format.json.ending ∧
      Format.json.Ends r.url ∧ ¬ p.UpdatesAs payload headers .json := by
  have hurl : r.url = p.source.root ++ "statuses/update" ++ Format.json.ending := by
    have hr := h
    rw [updateRequest_of_ne (by rw [hkind]; decide)] at hr
    cases hr
    rw [Source.url_eq, hkind]
    rfl
  refine ⟨hurl, by rw [hurl]; exact Format.ends_append_iff.mpr rfl, fun hjson => ?_⟩
  cases eq_of_updatesAs h hjson (updatesAs_xml p payload headers)

theorem search_update_astray :
    ∃ r, (onTwoHosts .search).updateRequest (.str "hi") [] = .ok r ∧
      r.url = "http://search.local/statuses/update.json" ∧
      ¬ Under (onTwoHosts .search).source.baseUrl r.url ∧
      ¬ ∀ f : Format, f.Ends r.url ↔ (onTwoHosts .search).UpdatesAs (.str "hi") [] f := by
  have hr : (onTwoHosts .search).updateRequest (.str "hi") [] =
      .ok ⟨.post, "http://search.local/statuses/update.json",
        [("status", "hi"), ("trim_user", "1")], none⟩ := by decide +kernel
  obtain ⟨-, hends, hjson⟩ := json_of_search_update rfl hr
  refine ⟨_, hr, rfl, ?_, fun hall => hjson ((hall .json).mp hends)⟩
  rintro ⟨rest, hrest⟩
  have hapart : ¬ "http://api.local/1/".toList <+: "http://search.local/statuses/update.json".toList := by
    decide +kernel
  have htoList := congrArg String.toList hrest
  rw [Source.withSlash, String.append_assoc, String.toList_append] at htoList
  exact hapart ⟨_, htoList.symm⟩

end Path
end FeedPoller.Feed
