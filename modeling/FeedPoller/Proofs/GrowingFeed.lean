import FeedPoller.Proofs.Terms

/-! Feeds that only grow. Behind the backend there is a list of items with distinct ids, to which items
are added at the end; a read answers with some of the items after its cursor, none of them passed over,
or fails. -/

namespace FeedPoller

variable {σ : Type} {p : Poller} {b : Backend σ} {feed : σ → List Item}

/-- The items strictly after a cursor; without a cursor, all of them. -/
def itemsAfter (items : List Item) : Option String → List Item
  | none => items
  | some id => (items.dropWhile (·.id ≠ id)).drop 1

def ids (items : List Item) : List String := items.map (·.id)

/-- What a backend gives for the parameters of a poller's own query. -/
structure GrowingFeed (b : Backend σ) (query : Json.Fields) (feed : σ → List Item) : Prop where
  distinct : ∀ s, (ids (feed s)).Nodup
  create : ∀ s, feed s <+: feed (b.create s).2
  openSession : ∀ path consumer user s, feed s <+: feed (b.openSession path consumer user s).2
  closeSession : ∀ path s, feed s <+: feed (b.closeSession path s)
  read : ∀ path cursor s, feed s <+: feed (b.read path cursor query s).2
  answer : ∀ path cursor s items, (∀ id ∈ cursor, id ∈ ids (feed s)) →
    (b.read path cursor query s).1.value = .ok items → items <+: itemsAfter (feed s) cursor

theorem itemsAfter_append {before after : List Item} {item : Item}
    (h : (ids (before ++ item :: after)).Nodup) :
    itemsAfter (before ++ item :: after) (some item.id) = after := by
  have hne : ∀ x ∈ before, x.id ≠ item.id := by
    intro x hx he
    simp only [ids, List.map_append, List.map_cons, List.nodup_append] at h
    exact h.2.2 _ (List.mem_map_of_mem hx) _ (List.mem_cons_self ..) he
  simp only [itemsAfter]
  rw [List.dropWhile_append_of_pos (by simpa using hne), List.dropWhile_cons_of_neg (by simp)]
  rfl

/-- An id stands at one place of a feed. -/
theorem append_cons_inj_of_nodup {before before' after after' : List Item} {item item' : Item}
    (h : (ids (before ++ item :: after)).Nodup)
    (heq : before ++ item :: after = before' ++ item' :: after') (hid : item.id = item'.id) :
    before = before' ∧ item = item' ∧ after = after' := by
  have hafter : after = after' := by
    rw [← itemsAfter_append h, hid, heq]
    exact itemsAfter_append (heq ▸ h)
  subst hafter
  obtain ⟨hbefore, hcons⟩ := List.append_inj' heq rfl
  exact ⟨hbefore, (List.cons.inj hcons).1, rfl⟩

/-- The items behind the last one of a front are all but the front. -/
theorem append_itemsAfter {front items : List Item} (hd : (ids items).Nodup) (h : front <+: items) :
    front ++ itemsAfter items (ids front).getLast? = items := by
  obtain ⟨rest, rfl⟩ := h
  rcases List.eq_nil_or_concat front with rfl | ⟨before, item, rfl⟩
  · rfl
  · have hlast : (ids (before.concat item)).getLast? = some item.id := by simp [ids]
    simp only [List.concat_eq_append, List.append_assoc, List.singleton_append] at hd ⊢
    rw [List.concat_eq_append] at hlast
    rw [hlast, itemsAfter_append hd]

/-- A read from the end of a front on goes on right behind it. -/
theorem GrowingFeed.answer_after (hb : GrowingFeed b p.settings.query feed) {path : PathId} {s : σ}
    {front items : List Item} (h : front <+: feed s)
    (hread : (b.read path (ids front).getLast? p.settings.query s).1.value = .ok items) :
    front ++ items <+: feed s := by
  have hcursor : ∀ id ∈ (ids front).getLast?, id ∈ ids (feed s) := by
    intro id hid
    have hmem : id ∈ ids front := List.mem_of_getLast? hid
    exact (h.map _).subset hmem
  have hitems := hb.answer path _ s items hcursor hread
  rw [← append_itemsAfter (hb.distinct s) h]
  exact (List.prefix_append_right_inj front).mpr hitems

/-- Actions aside take nothing from the feed. -/
theorem GrowingFeed.perform_isAside (hb : GrowingFeed b p.settings.query feed) (w : World σ)
    {action : Action} (h : action.IsAside) :
    feed w.backend <+: feed (w.perform p b action).2.backend := by
  cases action with
  | create => exact hb.create _
  | openSession path consumer user => exact hb.openSession path consumer user _
  | closeSession path => exact hb.closeSession path _
  | cursor | read | update | seen | dispatch | record => exact h.elim
  | _ => exact List.prefix_refl _

/-- While the world is by itself, the feed at most grows. -/
theorem Meanwhile.feed_grows {w w' : World σ}
    (h : Meanwhile (fun s s' => feed s <+: feed s') w w') : feed w.backend <+: feed w'.backend := by
  obtain ⟨-, -, hs | hs⟩ := h.apart
  · exact hs ▸ List.prefix_refl _
  · exact hs

/-! ## The plainest one -/

/-- Items with distinct ids. -/
abbrev Shelf := { items : List Item // (ids items).Nodup }

/-- Gives all there is, at once. -/
def Shelf.backend : Backend Shelf where
  create s := (.ok 0, s)
  authRequired _ _ := false
  openSession _ _ _ s := (.ok (), s)
  closeSession _ s := s
  read _ cursor _ s := (⟨.ok (itemsAfter s.val cursor), none⟩, s)
  update _ _ _ s := (⟨.ok none, none⟩, s)

/-- Reads a shelf without credentials and leaves out repeated items. -/
def Shelf.reader : Poller := { settings := { skipDuplicates := true }, background := {} }

def Shelf.twoItems : Shelf := ⟨[⟨"a", .null, []⟩, ⟨"b", .null, []⟩], by decide⟩

/-- A course of a poller at its start. -/
def Shelf.start (p : Poller) (rule : Sink.Rule) (s : Shelf) : Course Shelf where
  world := {
    backend := s
    history := .new p.settings.maxHistory p.settings.skipDuplicates
    sink := { rule } }

theorem Shelf.growingFeed (query : Json.Fields) : GrowingFeed backend query Subtype.val where
  distinct s := s.property
  create _ := List.prefix_refl _
  openSession _ _ _ _ := List.prefix_refl _
  closeSession _ _ := List.prefix_refl _
  read _ _ _ := List.prefix_refl _
  answer _ cursor s items _ h := by
    obtain rfl : itemsAfter s.val cursor = items := by simpa [backend] using h
    exact List.prefix_refl _

end FeedPoller
