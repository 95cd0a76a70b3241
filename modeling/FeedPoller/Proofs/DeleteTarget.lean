import FeedPoller.Feed.Path
import FeedPoller.Proofs.UrlPaths

/-! Which status a delete names. Its id is the text of a header and is put into the address as it stands.
Main statement: while the text has no slash, question mark or number sign in it, the address is that of
one status, whatever else the text is and wherever the feed may be (`delete_names_one`). -/

namespace FeedPoller

/-! ## Segments -/

namespace Http.Url

/-- The characters that end a segment. -/
def isMark (c : Char) : Bool := isSlash c || c == '?' || c == '#'

theorem ne_of_isMark {c : Char} (h : isMark c = false) : isSlash c = false ∧ c ≠ '?' ∧ c ≠ '#' := by
  simpa [isMark, and_assoc] using h

/-- A text that is one segment of a path, and no step along it. -/
structure IsSegment (s : String) : Prop where
  nonempty : s ≠ ""
  unmarked : ∀ c ∈ s.toList, isMark c = false
  name : IsName s.toList

theorem isMark_hexCapital : ∀ n < 16, isMark (Text.hexCapital n) = false := by decide

/-- Encoding brings in no marks. -/
theorem isMark_of_mem_encodeWith {escaped : Char → Bool} {cs : List Char}
    (h : ∀ c ∈ cs, isMark c = false) : ∀ c ∈ (encodeWith escaped cs).toList, isMark c = false := by
  have hbyte : ∀ b : UInt8, ∀ c ∈ Text.percentByte b, isMark c = false := by
    intro b
    have hb : b.toNat < 256 := b.toNat_lt
    simp only [Text.percentByte, List.forall_mem_cons]
    exact ⟨rfl, isMark_hexCapital _ (by omega), isMark_hexCapital _ (by omega), by simp⟩
  intro c hc
  rw [encodeWith, String.toList_ofList, Text.percentEncode, List.mem_flatMap] at hc
  obtain ⟨d, hd, hc⟩ := hc
  split at hc
  · rw [List.mem_singleton.mp hc]
    exact h d hd
  · obtain ⟨b, -, hb⟩ := List.mem_flatMap.mp hc
    exact hbyte b c hb

end Http.Url

namespace Feed

open Http

/-! ## Addresses of statuses -/

/-- Where the statuses of a feed are deleted. -/
def destroyAt (baseUrl : String) : String := Source.withSlash baseUrl ++ "statuses/destroy/"

/-- The last segment of an address that is asked for, and as it stands there once it is sent. -/
def statusName (id : String) : String := id ++ ".xml"

def sentName (id : String) : String := Url.encodeWith Url.escapedInPath (Url.tidied (statusName id))

/-- The address of the status with an id, and of nothing else: as it is written, and as it is read by
those who have to find the way. -/
structure AddressesStatus (baseUrl id url : String) : Prop where
  written : url = destroyAt baseUrl ++ statusName id
  segment : Url.IsSegment (statusName id)
  sent : Url.IsSegment (sentName id)
  /-- Wherever statuses are deleted, the id comes last, is one segment and touches nothing else … -/
  named : Url.named (Url.tidied (statusName id)) = [sentName id]
  place : Url.ofString? url = (Url.ofString? (destroyAt baseUrl)).map fun u =>
    if '#' ∈ baseUrl.toList then u else u.extended (Url.tidied (statusName id))
  /-- … and that is below the feed. -/
  path : ∀ u, Url.ofString? (Source.withSlash baseUrl) = some u → u.query = none →
    '#' ∉ baseUrl.toList → Url.ofString? url =
      some { u with path := u.path.dropLast ++ ["statuses", "destroy", sentName id] }

section

variable {id : String}

theorem getLast?_statusName (id : String) : (statusName id).toList.getLast? = some 'l' := by
  rw [statusName, String.toList_append]
  exact List.getLast?_append_of_ne_nil id.toList (by simp)

theorem tidied_statusName (id : String) :
    Url.tidied (statusName id) = Url.tidied id ++ ".xml".toList := by
  have hending : ".xml".toList.filter Url.isTidy = ".xml".toList := by simp [Url.isTidy]
  rw [Url.tidied, statusName, String.toList_append, List.filter_append, hending]
  rfl

theorem isName_tidied_statusName (id : String) : Url.IsName (Url.tidied (statusName id)) := by
  have hlast : (Url.tidied (statusName id)).getLast? = some 'l' := by
    rw [tidied_statusName]
    exact List.getLast?_append_of_ne_nil _ (by simp)
  exact .of_getLast? hlast (by decide) (by decide)

/-- The ending is nothing that is encoded. -/
theorem sentName_eq (id : String) :
    sentName id = Url.encodeWith Url.escapedInPath (Url.tidied id) ++ ".xml" := by
  have hending : Url.encodeWith Url.escapedInPath ".xml".toList = ".xml" := rfl
  rw [sentName, tidied_statusName, Url.encodeWith_append, hending]

theorem tidied_below (id : String) : Url.tidied ("statuses/destroy/" ++ statusName id) =
    "statuses".toList ++ '/' :: ("destroy".toList ++ '/' :: Url.tidied (statusName id)) := by
  have hplace : "statuses/destroy/".toList.filter Url.isTidy =
      "statuses".toList ++ '/' :: ("destroy".toList ++ ['/']) := by simp [Url.isTidy]
  rw [Url.tidied, String.toList_append, List.filter_append, hplace]
  simp [Url.tidied]

variable (hid : ∀ c ∈ id.toList, Url.isMark c = false)

include hid

theorem isMark_of_mem_statusName : ∀ c ∈ (statusName id).toList, Url.isMark c = false := by
  rw [statusName, String.toList_append]
  exact List.forall_mem_append.mpr ⟨hid, by simp [Url.isMark, Url.isSlash]⟩

theorem isMark_of_mem_tidied : ∀ c ∈ Url.tidied (statusName id), Url.isMark c = false :=
  fun c hc => isMark_of_mem_statusName hid c (List.mem_of_mem_filter hc)

/-- An id without marks in it is all of one segment. -/
theorem segments_statusName :
    Url.segments (Url.tidied (statusName id)) = [Url.tidied (statusName id)] :=
  List.splitOnP_eq_singleton fun c hc => (Url.ne_of_isMark (isMark_of_mem_tidied hid c hc)).1

theorem isSegment_statusName : Url.IsSegment (statusName id) where
  nonempty h := by
    have hlast := getLast?_statusName id
    rw [h] at hlast
    cases hlast
  unmarked := isMark_of_mem_statusName hid
  name := .of_getLast? (getLast?_statusName id) (by decide) (by decide)

theorem isSegment_sentName : Url.IsSegment (sentName id) := by
  have hlast : (sentName id).toList.getLast? = some 'l' := by
    rw [sentName_eq, String.toList_append]
    exact List.getLast?_append_of_ne_nil _ (by simp)
  refine ⟨fun h => ?_, Url.isMark_of_mem_encodeWith (isMark_of_mem_tidied hid),
    .of_getLast? hlast (by decide) (by decide)⟩
  rw [h] at hlast
  cases hlast

theorem isEnd_statusName : Url.IsEnd (statusName id) where
  last := by
    rw [getLast?_statusName]
    rintro c ⟨⟩
    decide
  tail := {
    unmarked := fun c hc => (Url.ne_of_isMark (isMark_of_mem_tidied hid c hc)).2
    names := by
      rw [segments_statusName hid]
      exact List.forall_mem_singleton.mpr (isName_tidied_statusName id) }

theorem segments_below : Url.segments (Url.tidied ("statuses/destroy/" ++ statusName id)) =
    ["statuses".toList, "destroy".toList, Url.tidied (statusName id)] := by
  have hstatuses : ∀ c ∈ "statuses".toList, Url.isSlash c = false := by simp [Url.isSlash]
  have hdestroy : ∀ c ∈ "destroy".toList, Url.isSlash c = false := by simp [Url.isSlash]
  have hname := segments_statusName hid
  rw [Url.segments] at hname ⊢
  rw [tidied_below, List.splitOnP_append_cons _ _ rfl, List.splitOnP_append_cons _ _ rfl,
    List.splitOnP_eq_singleton hstatuses, List.splitOnP_eq_singleton hdestroy, hname]
  rfl

theorem isEnd_below : Url.IsEnd ("statuses/destroy/" ++ statusName id) where
  last := by
    have hlast : ("statuses/destroy/" ++ statusName id).toList.getLast? = some 'l' := by
      rw [String.toList_append, List.getLast?_append, getLast?_statusName]
      rfl
    rw [hlast]
    rintro c ⟨⟩
    decide
  tail := {
    unmarked := by
      have hplace : '?' ∉ "statuses/destroy/".toList ∧ '#' ∉ "statuses/destroy/".toList := by simp
      rw [Url.tidied, String.toList_append, List.filter_append]
      refine List.forall_mem_append.mpr ⟨fun c hc => ?_, (isEnd_statusName hid).tail.unmarked⟩
      have hc' := List.mem_of_mem_filter hc
      exact ⟨ne_of_mem_of_not_mem hc' hplace.1, ne_of_mem_of_not_mem hc' hplace.2⟩
    names := by
      rw [segments_below hid]
      have hstatuses : "statuses".toList.getLast? = some 's' := by simp
      have hdestroy : "destroy".toList.getLast? = some 'y' := by simp
      simp only [List.forall_mem_cons]
      exact ⟨.of_getLast? hstatuses (by decide) (by decide),
        .of_getLast? hdestroy (by decide) (by decide), isName_tidied_statusName id, by simp⟩ }

omit hid in
theorem mem_withSlash (baseUrl : String) :
    '#' ∈ (Source.withSlash baseUrl).toList ↔ '#' ∈ baseUrl.toList := by
  have hsep : ∀ sep ∈ ["", "/"], '#' ∉ sep.toList := by simp
  rw [Source.withSlash, String.toList_append, List.mem_append]
  split
  · exact or_iff_left (hsep "" (by simp))
  · exact or_iff_left (hsep "/" (by simp))

/-- An id without marks in it is that of one status, whatever else it is. -/
theorem addressesStatus_of_unmarked (baseUrl : String) :
    AddressesStatus baseUrl id (destroyAt baseUrl ++ statusName id) := by
  have hroot := Source.getLast?_withSlash baseUrl
  have hnamed : Url.named (Url.tidied (statusName id)) = [sentName id] := by
    rw [Url.named, segments_statusName hid]
    rfl
  refine ⟨rfl, isSegment_statusName hid, isSegment_sentName hid, hnamed, ?_,
    fun u hu hquery hbase => ?_⟩
  · have hslash : (destroyAt baseUrl).toList.getLast? = some '/' := by
      rw [destroyAt, String.toList_append]
      exact List.getLast?_append_of_ne_nil _ (by simp)
    have hmark : '#' ∈ (destroyAt baseUrl).toList ↔ '#' ∈ baseUrl.toList := by
      rw [destroyAt, String.toList_append, List.mem_append, mem_withSlash]
      exact or_iff_left (by simp)
    have hend : "statuses/destroy/".toList.getLast? = some '/' := by simp
    have hhost : Url.NamesHost (destroyAt baseUrl) :=
      .append hroot (Url.not_le_of_slash hend) ⟨'s', by simp [Url.tidied, Url.isTidy], rfl⟩
    rw [Url.ofString?_append hslash hhost (isEnd_statusName hid)]
    simp only [hmark]
  · have hbelow : Url.named (Url.tidied ("statuses/destroy/" ++ statusName id)) =
        ["statuses", "destroy", sentName id] := by
      have hstatuses : Url.encodeWith Url.escapedInPath "statuses".toList = "statuses" := rfl
      have hdestroy : Url.encodeWith Url.escapedInPath "destroy".toList = "destroy" := rfl
      rw [Url.named, segments_below hid, List.map_cons, List.map_cons, hstatuses, hdestroy]
      rfl
    rw [destroyAt, String.append_assoc,
      Url.ofString?_append hroot (.of_ofString? hu) (isEnd_below hid), hu, Option.map_some,
      if_neg (mt (mem_withSlash baseUrl).mp hbase), Url.extended, hquery, hbelow]

end

/-! ## Deletes -/

namespace Path

/-- A delete addresses the status that its header names. -/
theorem delete_names_one {p : Path} (hkind : p.source.kind = .delete) {payload : Json.Value}
    {headers : Json.Fields} {r : Http.Request} (h : p.updateRequest payload headers = .ok r)
    (hunmarked : ∀ v, Named.get? "data_id" headers = some v →
      ∀ c ∈ v.plain.toList, c ∉ ['/', '\\', '?', '#']) :
    r.method = .post ∧ ∃ v, Named.get? "data_id" headers = some v ∧
      Text.allBlank v.plain = false ∧ AddressesStatus p.source.baseUrl v.plain r.url := by
  obtain ⟨v, hv, hblank, rfl⟩ := updateRequest_of_delete hkind h
  have hid : ∀ c ∈ v.plain.toList, Url.isMark c = false := by
    intro c hc
    have hnone := hunmarked v hv c hc
    simp only [List.mem_cons, List.not_mem_nil, or_false, not_or] at hnone
    simp [Url.isMark, Url.isSlash, hnone]
  have hurl : p.source.url ("statuses/destroy/" ++ v.plain) =
      destroyAt p.source.baseUrl ++ statusName v.plain := by
    have hother : p.source.kind ≠ .search := by
      rw [hkind]
      decide
    have hending : p.source.kind.ending = ".xml" := by
      rw [hkind]
      rfl
    rw [Source.url_eq, Source.root_of_ne hother, hending, destroyAt, statusName]
    simp only [String.append_assoc]
  refine ⟨rfl, v, hv, hblank, ?_⟩
  dsimp only
  rw [hurl]
  exact addressesStatus_of_unmarked hid p.source.baseUrl

/-- A path for deleting. -/
def deleting : Path := { source := { kind := .delete, baseUrl := "http://api.local/1/" } }

/-- The headers of a delete. -/
def naming (id : String) : Json.Fields := [("data_id", .str id)]

theorem eq_of_naming {id : String} {v : Json.Value} (h : Named.get? "data_id" (naming id) = some v) :
    v = .str id := by
  rw [naming, Named.get?_cons, if_pos rfl] at h
  exact (Option.some.inj h).symm

/-- An id with a space and points in it. -/
theorem deleting_names_one :
    (∀ v, Named.get? "data_id" (naming "5 ..") = some v →
      ∀ c ∈ v.plain.toList, c ∉ ['/', '\\', '?', '#']) ∧
    ∃ r, deleting.updateRequest .null (naming "5 ..") = .ok r ∧
      AddressesStatus "http://api.local/1/" "5 .." r.url ∧
      r.url = "http://api.local/1/statuses/destroy/5 ...xml" := by
  have hunmarked : ∀ v, Named.get? "data_id" (naming "5 ..") = some v →
      ∀ c ∈ v.plain.toList, c ∉ ['/', '\\', '?', '#'] := by
    intro v hv
    rw [eq_of_naming hv]
    simp [Json.Value.plain]
  have hr : deleting.updateRequest .null (naming "5 ..") =
      .ok ⟨.post, "http://api.local/1/statuses/destroy/5 ...xml",
        [("status", "null"), ("trim_user", "1")], none⟩ := by decide +kernel
  obtain ⟨-, v, hv, -, hstatus⟩ := delete_names_one rfl hr hunmarked
  rw [eq_of_naming hv] at hstatus
  exact ⟨hunmarked, _, hr, hstatus, rfl⟩

/-! ## Ids with marks in them

They are put into the address all the same, and may lead away from the statuses. -/

theorem delete_led_astray :
    ∃ r, deleting.updateRequest (.str "hi") (naming "../update") = .ok r ∧
      r.url = "http://api.local/1/statuses/destroy/../update.xml" ∧
      (Url.ofString? r.url).map Url.path = some ["1", "statuses", "update.xml"] ∧
      ¬ ∃ id, AddressesStatus "http://api.local/1/" id r.url := by
  have hr : deleting.updateRequest (.str "hi") (naming "../update") =
      .ok ⟨.post, "http://api.local/1/statuses/destroy/../update.xml",
        [("status", "hi"), ("trim_user", "1")], none⟩ := by decide +kernel
  have hbase : Url.ofString? (Source.withSlash "http://api.local/1/") =
      some ⟨"http", "", none, "api.local", none, ["1", ""], none⟩ := by decide +kernel
  have hpath : (Url.ofString? "http://api.local/1/statuses/destroy/../update.xml").map Url.path =
      some ["1", "statuses", "update.xml"] := by decide +kernel
  refine ⟨_, hr, rfl, hpath, ?_⟩
  rintro ⟨id, h⟩
  rw [h.path _ hbase rfl (by decide +kernel)] at hpath
  simp at hpath

end Path
end Feed
end FeedPoller
