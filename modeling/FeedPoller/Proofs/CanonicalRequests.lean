import FeedPoller.Feed.Path
import FeedPoller.Proofs.ByteOrder
import Mathlib.Data.Prod.Lex
import Mathlib.Data.String.Basic

/-! The one form of a request. Parameters and headers are given in any order, each name once. Main
statement: what is sent is in ascending order of names, each name once, with the values that were given
and nothing else, whatever the order was (`requests_canonical`). -/

namespace FeedPoller.Feed

/-- Names in ascending order of their bytes, each once. -/
def ByName (out : List (String × String)) : Prop :=
  out.Pairwise fun a b => Text.bytes a.1 < Text.bytes b.1

theorem byName_iff_ascending {out : List (String × String)} :
    ByName out ↔ Named.Ascending out := by
  simp only [ByName, Named.Ascending, Text.lt_iff_bytes_lt]

/-! ## Reads -/

/-- The parameters of a read as they come: each in the place of an earlier one of its name, after the
cursor. -/
def gathered (cursor : Option String) (params : List (String × Json.Value)) :
    List (String × String) :=
  params.foldl (fun out p => out.filter (fun e => e.1 ≠ p.1) ++ [(p.1, p.2.plain)])
    (cursor.toList.map (cursorName, ·))

/-- By name, and by value where the names are the same. -/
def sorted (out : List (String × String)) : List (String × String) :=
  out.mergeSort fun a b => toLex a ≤ toLex b

/-- The query of a read. -/
structure IsQuery (cursor : Option String) (params : List (String × Json.Value))
    (out : List (String × String)) : Prop where
  byName : ByName out
  entries : ∀ name value, (name, value) ∈ out ↔
    (∃ v, (name, v) ∈ params ∧ value = v.plain) ∨
      name = "since_id" ∧ cursor = some value ∧ ∀ v, ("since_id", v) ∉ params

theorem ascending_readParams (cursor : Option String) (params : List (String × Json.Value)) :
    Named.Ascending (readParams cursor params) := by
  have hfold : ∀ out : Named String, out.Ascending → Named.Ascending
      (params.foldl (fun out p => Named.insert p.1 p.2.plain out) out) := by
    induction params with
    | nil => exact fun _ hout => hout
    | cons p params ih => exact fun out hout => ih _ (hout.insert p.1 p.2.plain)
  cases cursor with
  | none => exact hfold [] .nil
  | some id => exact hfold [(cursorName, id)] (List.pairwise_singleton ..)

/-- Kept in order or not, the parameters are the same. -/
theorem readParams_perm (cursor : Option String) (params : List (String × Json.Value)) :
    (readParams cursor params).Perm (gathered cursor params) := by
  have hfold : ∀ (out : Named String) (out' : List (String × String)), out.Ascending →
      out.Perm out' →
      (params.foldl (fun out p => Named.insert p.1 p.2.plain out) out).Perm
        (params.foldl (fun out p => out.filter (fun e => e.1 ≠ p.1) ++ [(p.1, p.2.plain)]) out') := by
    induction params with
    | nil => exact fun _ _ _ hperm => hperm
    | cons p params ih =>
      intro out out' hout hperm
      refine ih _ _ (hout.insert p.1 p.2.plain) ?_
      exact ((hout.insert_perm p.1 p.2.plain).trans ((hperm.filter _).cons _)).trans
        (List.perm_append_singleton ..).symm
  cases cursor with
  | none => exact hfold [] [] .nil (.refl _)
  | some id => exact hfold [(cursorName, id)] _ (List.pairwise_singleton ..) (.refl _)

/-- Sorting at the end comes to the same as keeping the order all along. -/
theorem eq_sorted_of_ascending {out gathered : List (String × String)} (hout : Named.Ascending out)
    (hperm : out.Perm gathered) : out = sorted gathered := by
  have hsorted : (sorted gathered).Pairwise fun a b => toLex a ≤ toLex b := by
    refine (List.pairwise_mergeSort (fun a b c hab hbc => ?_) (fun a b => ?_) _).imp
      fun h => of_decide_eq_true h
    · exact decide_eq_true ((of_decide_eq_true hab).trans (of_decide_eq_true hbc))
    · simpa using le_total (toLex a) (toLex b)
  have hsame : out.Perm (sorted gathered) := hperm.trans (List.mergeSort_perm ..).symm
  refine hsame.eq_of_pairwise (fun a b _ _ hab hba => ?_) ?_ hsorted
  · exact toLex.injective (le_antisymm hab hba)
  · exact hout.imp fun h => (Prod.Lex.toLex_lt_toLex.mpr (.inl h)).le

theorem readParams_eq_sorted (cursor : Option String) (params : List (String × Json.Value)) :
    readParams cursor params = sorted (gathered cursor params) :=
  eq_sorted_of_ascending (ascending_readParams cursor params) (readParams_perm cursor params)

/-- Each parameter is there, and the cursor if no parameter has its name. -/
theorem mem_gathered {cursor : Option String} {params : List (String × Json.Value)}
    (h : (params.map Prod.fst).Nodup) {e : String × String} :
    e ∈ gathered cursor params ↔ (∃ p ∈ params, e = (p.1, p.2.plain)) ∨
      e ∈ cursor.toList.map (cursorName, ·) ∧ ∀ p ∈ params, p.1 ≠ e.1 := by
  have hfold : ∀ out : List (String × String),
      e ∈ params.foldl (fun out p => out.filter (fun e => e.1 ≠ p.1) ++ [(p.1, p.2.plain)]) out ↔
        (∃ p ∈ params, e = (p.1, p.2.plain)) ∨ e ∈ out ∧ ∀ p ∈ params, p.1 ≠ e.1 := by
    induction params with
    | nil => simp
    | cons p params ih =>
      intro out
      obtain ⟨hnew, hrest⟩ := List.nodup_cons.mp h
      have hother : ∀ q ∈ params, q.1 ≠ p.1 := fun q hq heq =>
        hnew (List.mem_map.mpr ⟨q, hq, heq⟩)
      rw [List.foldl_cons, ih hrest, List.exists_mem_cons_iff, List.forall_mem_cons, List.mem_append,
        List.mem_filter, List.mem_singleton, decide_eq_true_iff]
      constructor
      · rintro (hlater | ⟨⟨hmem, hne⟩ | hhere, hrest⟩)
        · exact .inl (.inr hlater)
        · exact .inr ⟨hmem, Ne.symm hne, hrest⟩
        · exact .inl (.inl hhere)
      · rintro ((rfl | hlater) | ⟨hmem, hne, hrest⟩)
        · exact .inr ⟨.inr rfl, hother⟩
        · exact .inl hlater
        · exact .inr ⟨.inl ⟨hmem, Ne.symm hne⟩, hrest⟩
  exact hfold _

theorem isQuery_readParams (cursor : Option String) {params : List (String × Json.Value)}
    (h : (params.map Prod.fst).Nodup) : IsQuery cursor params (readParams cursor params) where
  byName := byName_iff_ascending.mpr (ascending_readParams cursor params)
  entries name value := by
    have hcursor : (name, value) ∈ cursor.toList.map (cursorName, ·) ↔
        name = "since_id" ∧ cursor = some value := by
      cases cursor <;> simp [cursorName, eq_comm]
    rw [(readParams_perm cursor params).mem_iff, mem_gathered h, hcursor, and_assoc]
    refine or_congr ?_ (and_congr_right fun hname => and_congr_right fun _ => ?_)
    · simp only [Prod.exists, Prod.mk.injEq]
      exact ⟨fun ⟨_, v, hmem, hk, hv⟩ => ⟨v, hk ▸ hmem, hv⟩, fun ⟨v, hmem, hv⟩ => ⟨_, v, hmem, rfl, hv⟩⟩
    · subst hname
      constructor
      · exact fun hall v hmem => hall _ hmem rfl
      · rintro hall ⟨k, v⟩ hmem rfl
        exact hall v hmem

/-- In whichever order the parameters are given, the query is the same. -/
theorem readParams_of_perm (cursor : Option String) {params params' : List (String × Json.Value)}
    (h : (params.map Prod.fst).Nodup) (hperm : params'.Perm params) :
    readParams cursor params' = readParams cursor params := by
  refine (ascending_readParams cursor params').ext_mem (ascending_readParams cursor params)
    fun e => ?_
  rw [(readParams_perm cursor params').mem_iff, (readParams_perm cursor params).mem_iff,
    mem_gathered h, mem_gathered ((hperm.map _).nodup_iff.mpr h)]
  simp only [hperm.mem_iff]

/-! ## Updates -/

/-- The parameters of an update as they come: the headers that go with it, then whether the user is cut
short, then the payload. -/
def filledIn (payload : Json.Value) (headers : Json.Fields) : List (String × String) :=
  formHeaders.filterMap (fun name => (Named.get? name headers).map fun v => (name, v.plain)) ++
    [(trimUser, ((Named.get? trimUser headers).map Json.Value.plain).getD "1")] ++
    [("status", payload.plain)]

/-- The form of an update. -/
structure IsForm (payload : Json.Value) (headers : List (String × Json.Value))
    (out : List (String × String)) : Prop where
  byName : ByName out
  entries : ∀ name value, (name, value) ∈ out ↔
    (name ∈ ["in_reply_to_status_id", "lat", "long", "place_id"] ∧
      ∃ v, (name, v) ∈ headers ∧ value = v.plain) ∨
    (name = "status" ∧ value = payload.plain) ∨
    (name = "trim_user" ∧ ((∃ v, ("trim_user", v) ∈ headers ∧ value = v.plain) ∨
      value = "1" ∧ ∀ v, ("trim_user", v) ∉ headers))

/-- The headers that are looked at. -/
def readHeaders : List String := trimUser :: formHeaders

/-- The names in a form come in one order, however many of them are there. -/
theorem ascending_updateParams (payload : Json.Value) (headers : Json.Fields) :
    Named.Ascending (updateParams payload headers) := by
  have hpicked : ∀ names : List String,
      (names.filterMap fun name => (Named.get? name headers).map fun v => (name, v.plain)).map Prod.fst =
        names.filter fun name => (Named.get? name headers).isSome := by
    intro names
    induction names with
    | nil => rfl
    | cons name names ih => cases hget : Named.get? name headers <;> simp [hget, ih]
  have hall : (formHeaders ++ ["status", trimUser]).Pairwise (· < ·) := by decide +kernel
  refine List.pairwise_map.mp (hall.sublist ?_)
  rw [updateParams, List.map_append, hpicked]
  exact List.filter_sublist.append_right _

/-- Sorting at the end comes to the same here too. -/
theorem updateParams_eq_sorted (payload : Json.Value) (headers : Json.Fields) :
    updateParams payload headers = sorted (filledIn payload headers) := by
  refine eq_sorted_of_ascending (ascending_updateParams payload headers) ?_
  rw [updateParams, filledIn, List.append_assoc]
  exact (List.Perm.swap ..).append_left _

theorem isForm_updateParams (payload : Json.Value) {headers : List (String × Json.Value)}
    (h : (headers.map Prod.fst).Nodup) : IsForm payload headers (updateParams payload headers) where
  byName := byName_iff_ascending.mpr (ascending_updateParams payload headers)
  entries name value := by
    simp only [← Named.get?_eq_some_iff h]
    rw [updateParams, List.mem_append, List.mem_filterMap, List.mem_cons, List.mem_singleton,
      Prod.mk_inj, Prod.mk_inj]
    refine or_congr ⟨?_, ?_⟩ (or_congr .rfl (and_congr_right fun _ => ?_))
    · rintro ⟨_, hname, hvalue⟩
      obtain ⟨v, hv, heq⟩ := Option.map_eq_some_iff.mp hvalue
      cases heq
      exact ⟨hname, v, hv, rfl⟩
    · rintro ⟨hname, v, hv, rfl⟩
      exact ⟨name, hname, Option.map_eq_some_iff.mpr ⟨v, hv, rfl⟩⟩
    · change value = ((Named.get? "trim_user" headers).map Json.Value.plain).getD "1" ↔ _
      cases Named.get? "trim_user" headers <;> simp

/-- No other header has a part in a form. -/
theorem updateParams_congr (payload : Json.Value) {headers headers' : Json.Fields}
    (h : ∀ name ∈ readHeaders, Named.get? name headers' = Named.get? name headers) :
    updateParams payload headers' = updateParams payload headers := by
  obtain ⟨htrim, hpicked⟩ := List.forall_mem_cons.mp h
  have hsame : formHeaders.filterMap (fun name => (Named.get? name headers').map fun v => (name, v.plain)) =
      formHeaders.filterMap fun name => (Named.get? name headers).map fun v => (name, v.plain) :=
    List.filterMap_congr fun name hname => by rw [hpicked name hname]
  rw [updateParams, updateParams, htrim, hsame]

/-! ## Requests -/

/-- What a read asks with has ascending names, each once, and is made of the parameters and the cursor
alone, in whichever order they are given and whether they are sorted as they come or at the end. What an
update posts has them as well, sorted in either way, and is made of the payload and of five headers. What
is posted to delete is made of the payload. -/
theorem requests_canonical :
    (∀ (cursor : Option String) (params : List (String × Json.Value)), (params.map Prod.fst).Nodup →
      IsQuery cursor params (readParams cursor params) ∧
        readParams cursor params = sorted (gathered cursor params) ∧
        (∀ params', params'.Perm params → readParams cursor params' = readParams cursor params) ∧
        ∀ (p : Path) (r : Http.Request), p.readRequest cursor params = some r →
          r.params = readParams cursor params) ∧
      (∀ (p : Path) (payload : Json.Value) (headers : List (String × Json.Value)),
        p.source.kind ≠ .delete → (headers.map Prod.fst).Nodup →
        ∃ r, p.updateRequest payload headers = .ok r ∧ IsForm payload headers r.params ∧
          r.params = sorted (filledIn payload headers) ∧
          (∀ headers', headers'.Perm headers → p.updateRequest payload headers' = .ok r) ∧
          ∀ headers', (∀ name ∈ readHeaders, Named.get? name headers' = Named.get? name headers) →
            p.updateRequest payload headers' = .ok r) ∧
      ∀ (p : Path) (payload : Json.Value) (headers : Json.Fields) (r : Http.Request),
        p.source.kind = .delete → p.updateRequest payload headers = .ok r →
        ByName r.params ∧ r.params = sorted (filledIn payload []) ∧
          r.params = [("status", payload.plain), ("trim_user", "1")] := by
  refine ⟨fun cursor params h => ?_, fun p payload headers hkind h => ?_,
    fun p payload headers r hkind hr => ?_⟩
  · refine ⟨isQuery_readParams cursor h, readParams_eq_sorted cursor params,
      fun _ => readParams_of_perm cursor h, fun p r hr => ?_⟩
    obtain ⟨stream, -, rfl⟩ := Option.map_eq_some_iff.mp hr
    rfl
  · have hsame : ∀ headers',
        (∀ name ∈ readHeaders, Named.get? name headers' = Named.get? name headers) →
        p.updateRequest payload headers' = p.updateRequest payload headers := by
      intro headers' hagree
      rw [Path.updateRequest_of_ne hkind, Path.updateRequest_of_ne hkind,
        updateParams_congr payload hagree]
    refine ⟨_, Path.updateRequest_of_ne hkind headers, isForm_updateParams payload h,
      updateParams_eq_sorted payload headers, fun headers' hperm => ?_, fun headers' hagree => ?_⟩
    · rw [hsame headers' fun name _ => Named.get?_of_perm h hperm name]
      exact Path.updateRequest_of_ne hkind headers
    · rw [hsame headers' hagree]
      exact Path.updateRequest_of_ne hkind headers
  · obtain ⟨-, -, -, rfl⟩ := Path.updateRequest_of_delete hkind hr
    exact ⟨byName_iff_ascending.mpr (ascending_updateParams payload []),
      updateParams_eq_sorted payload [], rfl⟩

/-- Parameters in no order, one with the name of the cursor. -/
def shuffled : List (String × Json.Value) :=
  [("q", .str "rust lang"), ("since_id", .str "7"), ("count", .int 20)]

/-- Headers among which are some that no form takes up. -/
def cluttered : List (String × Json.Value) :=
  [("status", .str "other"), ("trim_user", .bool false), ("data_id", .int 5), ("lat", .str "50.1")]

/-- A path of a kind. -/
def pathOf (kind : Kind) : Path := { source := { kind, baseUrl := "http://feed/1/" } }

theorem shuffled_requests_canonical :
    (shuffled.map Prod.fst).Nodup ∧
      readParams (some "3") shuffled.reverse = readParams (some "3") shuffled ∧
      readParams (some "3") shuffled = [("count", "20"), ("q", "rust lang"), ("since_id", "7")] ∧
      IsQuery (some "3") shuffled (readParams (some "3") shuffled) ∧
      (cluttered.map Prod.fst).Nodup ∧
      (∃ r, (pathOf .update).updateRequest (.str "hi") cluttered = .ok r ∧
        IsForm (.str "hi") cluttered r.params ∧
        r.params = [("lat", "50.1"), ("status", "hi"), ("trim_user", "false")]) ∧
      ∃ r, (pathOf .delete).updateRequest (.str "hi") cluttered = .ok r ∧
        r.params = [("status", "hi"), ("trim_user", "1")] := by
  obtain ⟨hread, hupdate, hdelete⟩ := requests_canonical
  have hshuffled : (shuffled.map Prod.fst).Nodup := by decide +kernel
  have hcluttered : (cluttered.map Prod.fst).Nodup := by decide +kernel
  obtain ⟨hquery, -, hperm, -⟩ := hread (some "3") shuffled hshuffled
  obtain ⟨r, hr, hform, -⟩ := hupdate (pathOf .update) (.str "hi") cluttered (by decide) hcluttered
  have hposted : (pathOf .delete).updateRequest (.str "hi") cluttered = .ok {
      method := .post, url := "http://feed/1/statuses/destroy/5.xml",
      params := [("status", "hi"), ("trim_user", "1")], authorization := none } := by
    decide +kernel
  refine ⟨hshuffled, hperm _ (List.reverse_perm _), by decide +kernel, hquery, hcluttered,
    ⟨r, hr, hform, ?_⟩, _, hposted, (hdelete _ _ _ _ rfl hposted).2.2⟩
  cases hr
  decide +kernel

end FeedPoller.Feed
