import FeedPoller.Feed.Status
import FeedPoller.Proofs.Trimming
import FeedPoller.Proofs.XmlOutlines
import FeedPoller.Proofs.XmlPieces
import Mathlib.Data.List.Forall2

/-! Statuses and the items that come of them. The statuses of a document are the `status` elements under
its root, whatever else there is. Main statement: there are items just when every status has an id, and
then one for each status, in order, with its id and its value; but a status that stands alone and is
empty is passed over as if it were not there (`statuses_of_holds`). -/

namespace FeedPoller

/-- What is made of each entry of a list, in order, if something can be made of all of them. -/
theorem mapM_eq_ok_iff {α β ε : Type} {f : α → Except ε β} {xs : List α} {ys : List β} :
    xs.mapM f = .ok ys ↔ List.Forall₂ (fun x y => f x = .ok y) xs ys := by
  induction xs generalizing ys with
  | nil => cases ys <;> simp [pure, Except.pure]
  | cons x xs ih =>
    simp only [List.mapM_cons, bind_eq_ok_iff, ih]
    constructor
    · rintro ⟨y, hy, ys, hys, hdone⟩
      cases hdone
      exact .cons hy hys
    · rintro (_ | ⟨hy, hys⟩)
      exact ⟨_, hy, _, hys, rfl⟩

/-! ## Texts without markup -/

namespace Xml

/-- Without a bracket there is no markup. -/
theorem scanFrom_of_no_bracket {cs : List Char} (h : '<' ∉ cs) (fuel : Nat) :
    ∀ p ∈ Markup.scanFrom fuel cs, p.IsApart := by
  cases fuel with
  | zero => simp [Markup.scanFrom]
  | succ fuel =>
    cases cs with
    | nil => simp [Markup.scanFrom]
    | cons c cs =>
      have hinside : ∀ d ∈ c :: cs, (d != '<') = true := by
        simp only [bne_iff_ne]
        rintro d hd rfl
        exact h hd
      have hnone : Markup.scanFrom fuel [] = [] := by cases fuel <;> rfl
      have hc : c ≠ '<' := by simpa using hinside c List.mem_cons_self
      rw [scanFrom_text hc, List.dropWhile_eq_nil_iff.mpr hinside, hnone, List.append_nil]
      dsimp only
      split
      · simp
      · simp [Markup.IsApart]

theorem scan_of_no_bracket {cs : List Char} (h : '<' ∉ cs) : ∀ p ∈ Markup.scan cs, p.IsApart := by
  unfold Markup.scan
  split
  · exact scanFrom_of_no_bracket (fun hmem => h (List.mem_cons_of_mem _ hmem)) _
  · exact scanFrom_of_no_bracket h _

/-- There is a tag in a document. -/
theorem Holds.not_allBlank {text : String} {root : Root} (h : Holds text root) :
    Text.allBlank text = false := by
  refine eq_false_of_ne_true fun hblank => ?_
  have hbracket : '<' ∉ text.toList := by
    intro hmem
    exact absurd (List.all_eq_true.mp hblank '<' hmem) (by decide)
  obtain ⟨before, after, -, -, hscan⟩ := h
  have happart := scan_of_no_bracket hbracket
  rw [hscan] at happart
  cases root with
  | empty name => exact happart (.empty name) (by simp [Root.pieces])
  | full name inside => exact happart (.opening name) (by simp [Root.pieces])

end Xml

namespace Feed

open Json (Value)
open Xml (Outline Root Holds)

/-! ## One status -/

/-- The item of a status has the text under `id` for its id, if that is more than blanks. -/
theorem statusItem_eq_ok_iff {status : Value} {item : Item} :
    statusItem status = .ok item ↔ ∃ t, (status.get? "id").bind Value.str? = some t ∧
      Text.allBlank t = false ∧ item = { id := Text.trim t, payload := status } := by
  unfold statusItem
  dsimp only
  rw [Text.isEmpty_trim]
  cases ht : (status.get? "id").bind Value.str? with
  | none => simp [Text.allBlank]
  | some t =>
    rw [Option.getD_some]
    cases hblank : Text.allBlank t with
    | true => simp [hblank]
    | false =>
      rw [if_neg Bool.false_ne_true, Except.ok.injEq]
      refine ⟨fun h => ⟨t, rfl, hblank, h.symm⟩, ?_⟩
      rintro ⟨t, ⟨⟩, -, rfl⟩
      rfl

/-- What is the id of a status: there is one `id` in it and no other, with nothing but text in it, and
that is more than blanks; those around it do not belong to the id. -/
def HasId (status : Outline) (id : String) : Prop :=
  ∃ element, status.named "id" = [element] ∧ element.elements = [] ∧
    Text.allBlank (String.ofList element.chars) = false ∧
    id = Text.trim (String.ofList element.chars)

/-- The item that comes of a status. -/
def ItemOf (status : Outline) (item : Item) : Prop :=
  HasId status item.id ∧ item.payload = status.value ∧ item.headers = []

theorem idText_eq_some_iff {status : Outline} {t : String} :
    (status.value.get? "id").bind Value.str? = some t ↔
      ∃ element, status.named "id" = [element] ∧ element.elements = [] ∧ element.chars ≠ [] ∧
        t = String.ofList element.chars := by
  rw [Outline.get?_value]
  match status.named "id" with
  | [] => simp [Xml.kept]
  | [element] =>
    show element.value.str? = some t ↔ _
    rw [Outline.str?_value]
    simp
  | _ :: _ :: _ => simp [Xml.kept, Xml.gather, Value.str?]

theorem statusItem_value_iff {status : Outline} {item : Item} :
    statusItem status.value = .ok item ↔ ItemOf status item := by
  rw [statusItem_eq_ok_iff]
  constructor
  · rintro ⟨t, ht, hblank, rfl⟩
    obtain ⟨element, hnamed, hleaf, -, rfl⟩ := idText_eq_some_iff.mp ht
    exact ⟨⟨element, hnamed, hleaf, hblank, rfl⟩, rfl, rfl⟩
  · rintro ⟨⟨element, hnamed, hleaf, hblank, hid⟩, hpayload, hheaders⟩
    have hchars : element.chars ≠ [] := by
      intro hnil
      rw [hnil] at hblank
      cases hblank
    refine ⟨_, idText_eq_some_iff.mpr ⟨element, hnamed, hleaf, hchars, rfl⟩, hblank, ?_⟩
    rw [← hid, ← hpayload, ← hheaders]

/-! ## All statuses of a document -/

variable {text : String} {root : Root}

/-- There is one status and no other, and nothing in it. -/
def LoneEmpty (root : Root) : Prop :=
  ∃ status, root.inside.named "status" = [status] ∧ status.IsEmpty

/-- The items of what a root has under `status`. -/
def itemsUnder : Value → Except FetchFailure (List Item)
  | .null => .ok []
  | .list statuses => statuses.mapM statusItem
  | status => [status].mapM statusItem

theorem statusesOfXml_of_holds (h : Holds text root) :
    statusesOfXml text =
      itemsUnder ((Xml.kept ((root.inside.named "status").map Outline.value)).getD .null) := by
  rw [statusesOfXml, h.not_allBlank, xmlDocument, h.document, Root.value, ← Outline.get?_value]
  simp only [Bool.false_eq_true, if_false]
  cases hvalue : (root.inside.value.get? "status").getD .null <;>
    simp [itemsUnder, hvalue, bind, Except.bind, pure, Except.pure]

theorem itemsUnder_of_one {status : Value} (hnull : status ≠ .null) (hlist : status.list? = none) :
    itemsUnder status = [status].mapM statusItem := by
  cases status with
  | null => exact absurd rfl hnull
  | list => cases hlist
  | bool | int | float | str | object => rfl

/-- A status that stands alone and is empty is taken for none. -/
theorem statusesOfXml_of_loneEmpty (h : Holds text root) (hlone : LoneEmpty root) :
    statusesOfXml text = .ok [] := by
  obtain ⟨status, hstatus, hempty⟩ := hlone
  rw [statusesOfXml_of_holds h, hstatus]
  show itemsUnder status.value = _
  rw [Outline.value_eq_null_iff.mpr hempty, itemsUnder]

/-- Otherwise an item is made of each. -/
theorem statusesOfXml_of_not_loneEmpty (h : Holds text root) (hlone : ¬ LoneEmpty root) :
    statusesOfXml text = ((root.inside.named "status").map Outline.value).mapM statusItem := by
  rw [statusesOfXml_of_holds h]
  match hstatuses : root.inside.named "status" with
  | [] => rfl
  | [status] =>
    have hnull : status.value ≠ .null :=
      fun hnull => hlone ⟨status, hstatuses, Outline.value_eq_null_iff.mp hnull⟩
    exact itemsUnder_of_one hnull (Xml.valueOf_list? _)
  | _ :: _ :: _ => simp only [List.map_cons, Xml.kept, Xml.gather, Option.getD_some, itemsUnder]

/-- The items of a list of statuses: one for each, in order, unless one of them is without an id. -/
structure Itemizes (text : String) (statuses : List Outline) : Prop where
  items : ∀ items, statusesOfXml text = .ok items ↔ List.Forall₂ ItemOf statuses items
  read : (∃ items, statusesOfXml text = .ok items) ↔ ∀ status ∈ statuses, ∃ id, HasId status id
  failed : (¬ ∀ status ∈ statuses, ∃ id, HasId status id) →
    ∃ failure, statusesOfXml text = .error failure

theorem exists_forall₂_itemOf {statuses : List Outline} :
    (∃ items, List.Forall₂ ItemOf statuses items) ↔ ∀ status ∈ statuses, ∃ id, HasId status id := by
  induction statuses with
  | nil => simp
  | cons status statuses ih =>
    rw [List.forall_mem_cons, ← ih]
    constructor
    · rintro ⟨_, _ | ⟨hitem, hitems⟩⟩
      exact ⟨⟨_, hitem.1⟩, _, hitems⟩
    · rintro ⟨⟨id, hid⟩, items, hitems⟩
      exact ⟨{ id, payload := status.value } :: items, .cons ⟨hid, rfl, rfl⟩ hitems⟩

/-- Of every document, whatever is written around and between its elements: there is an item for each
status, unless one of them is without an id. Only a status that stands alone and is empty makes neither an
item nor a failure. -/
theorem statuses_of_holds (h : Holds text root) :
    (¬ LoneEmpty root → Itemizes text (root.inside.named "status")) ∧
      (LoneEmpty root → statusesOfXml text = .ok []) := by
  refine ⟨fun hlone => ?_, statusesOfXml_of_loneEmpty h⟩
  have hitems : ∀ items, statusesOfXml text = .ok items ↔
      List.Forall₂ ItemOf (root.inside.named "status") items := by
    intro items
    rw [statusesOfXml_of_not_loneEmpty h hlone, mapM_eq_ok_iff, List.forall₂_map_left_iff]
    simp only [statusItem_value_iff]
  have hread := exists_congr hitems |>.trans exists_forall₂_itemOf
  refine { items := hitems, read := hread, failed := fun hnone => ?_ }
  cases hread' : statusesOfXml text with
  | error failure => exact ⟨failure, rfl⟩
  | ok items => exact absurd (hread.mp ⟨items, hread'⟩) hnone

/-! ## Two feeds -/

/-- Names with prefixes, an instruction and a document type before the root, and a comment in it. -/
def mixedFeed : String :=
  "<?xml?><!DOCTYPE f><a:f><!----> <status><id> 7&#56;\n</id><geo/></status><b:status><id><![CDATA[ 9]]></id></b:status></a:f>"

def mixedRoot : Root :=
  .full "a:f".toList <|
    .aside <|
    .element "status".toList
      (.element "id".toList (.text "7&#56;".toList "78".toList (by decide) .done) <|
        .empty "geo".toList .done) <|
    .element "b:status".toList (.element "id".toList (.cdata " 9".toList .done) .done) .done

theorem holds_mixedFeed : Holds mixedFeed mixedRoot :=
  ⟨[.aside, .aside], [], by simp [Xml.Markup.IsApart], by simp, by decide +kernel⟩

/-- One id is a text in two pieces, the other is character data. -/
theorem mixedFeed_statuses :
    Holds mixedFeed mixedRoot ∧ ¬ LoneEmpty mixedRoot ∧
      statusesOfXml mixedFeed = .ok [
        { id := "78", payload := .object [("geo", .null), ("id", .str "78")] },
        { id := "9", payload := .object [("id", .str " 9")] }] := by
  have hmany : ¬ LoneEmpty mixedRoot := by
    rintro ⟨status, hstatus, -⟩
    cases hstatus
  have hitemizes := (statuses_of_holds holds_mixedFeed).1 hmany
  refine ⟨holds_mixedFeed, hmany, (hitemizes.items _).mpr (.cons ?_ (.cons ?_ .nil))⟩
  · exact ⟨⟨_, rfl, rfl, by decide, by decide⟩, rfl, rfl⟩
  · exact ⟨⟨_, rfl, rfl, by decide, by decide⟩, rfl, rfl⟩

/-- One status, and nothing in it. -/
def loneRoot : Root := .full "f".toList (.empty "status".toList .done)

/-- It has no id, but there is no failure. -/
theorem loneEmpty_unreported :
    Holds "<f><status/></f>" loneRoot ∧ loneRoot.inside.named "status" = [.done] ∧
      (¬ ∃ id, HasId .done id) ∧ statusesOfXml "<f><status/></f>" = .ok [] := by
  have hholds : Holds "<f><status/></f>" loneRoot := ⟨[], [], by simp, by simp, by decide⟩
  refine ⟨hholds, rfl, ?_, statusesOfXml_of_loneEmpty hholds ⟨_, rfl, rfl, rfl⟩⟩
  rintro ⟨id, element, hnone, -⟩
  cases hnone

/-- Two such statuses are a failure. -/
example : statusesOfXml "<f><status/><status/></f>" = .error ⟨"status without id", none⟩ := by
  rfl

end Feed
end FeedPoller
