import FeedPoller.Http.Url
import FeedPoller.Proofs.Trimming
import Mathlib.Data.List.Basic
import Mathlib.Data.List.TakeWhile

/-! Addresses that are put together. Main statement: what is put after the last slash of an address comes
after the last slash of its path, or at the end of its query if it has one, and is lost behind a number
sign; all else is as it was (`ofString?_append`). -/

namespace FeedPoller.Http.Url

/-! ## Cutting what is put together -/

section

variable {p : Char → Bool} {xs ys : List Char}

/-- What is cut off at a character is cut off there whatever follows. -/
theorem takeWhile_append_of_stop (h : ∃ c ∈ xs, p c = false) :
    (xs ++ ys).takeWhile p = xs.takeWhile p := by
  obtain ⟨c, hc, hstop⟩ := h
  rw [List.takeWhile_append, if_neg]
  intro hlength
  have hall : xs.takeWhile p = xs := (List.takeWhile_prefix p).eq_of_length hlength
  rw [List.takeWhile_eq_self_iff.mp hall c hc] at hstop
  cases hstop

theorem dropWhile_ne_nil (h : ∃ c ∈ xs, p c = false) : xs.dropWhile p ≠ [] := by
  obtain ⟨c, hc, hstop⟩ := h
  intro hnil
  rw [List.dropWhile_eq_nil_iff.mp hnil c hc] at hstop
  cases hstop

theorem dropWhile_append_of_stop (h : ∃ c ∈ xs, p c = false) :
    (xs ++ ys).dropWhile p = xs.dropWhile p ++ ys := by
  rw [List.dropWhile_append, if_neg]
  exact fun hnil => dropWhile_ne_nil h (List.isEmpty_iff.mp hnil)

theorem getLast?_dropWhile (h : ∃ c ∈ xs, p c = false) :
    (xs.dropWhile p).getLast? = xs.getLast? := by
  have hparts : xs.takeWhile p ++ xs.dropWhile p = xs := List.takeWhile_append_dropWhile
  rw [← List.getLast?_append_of_ne_nil (xs.takeWhile p) (dropWhile_ne_nil h), hparts]

/-- A character at which the cut may be is not cut off. -/
theorem mem_dropWhile {c : Char} (hstop : p c = false) : c ∈ xs.dropWhile p ↔ c ∈ xs := by
  refine ⟨fun h => (List.dropWhile_sublist p).subset h, fun h => ?_⟩
  have hparts : xs.takeWhile p ++ xs.dropWhile p = xs := List.takeWhile_append_dropWhile
  rw [← hparts, List.mem_append] at h
  obtain hbefore | hafter := h
  · rw [List.mem_takeWhile_imp hbefore] at hstop
    cases hstop
  · exact hafter

end

/-! ## The path -/

/-- A segment that is no step along the path. -/
structure IsName (cs : List Char) : Prop where
  stays : isStay cs = false
  back : isBack cs = false

/-- A last character tells that a segment is a name: steps end in points, or in what stands for one. -/
theorem IsName.of_getLast? {cs : List Char} {c : Char} (h : cs.getLast? = some c)
    (hpoint : c.toLower ≠ '.') (hcode : c.toLower ≠ 'e') : IsName cs := by
  have hlower : (Text.lower (String.ofList cs)).toList.getLast? = some c.toLower := by
    rw [Text.lower, String.toList_map, String.toList_ofList, List.getLast?_map, h]
    rfl
  have hsteps : ∀ s ∈ [".", "%2e", "..", ".%2e", "%2e.", "%2e%2e"],
      s.toList.getLast? = some '.' ∨ s.toList.getLast? = some 'e' := by decide +kernel
  have hapart : Text.lower (String.ofList cs) ∉ [".", "%2e", "..", ".%2e", "%2e.", "%2e%2e"] := by
    intro hmem
    obtain hend | hend := hsteps _ hmem
    · exact hpoint (Option.some.inj (hlower.symm.trans hend))
    · exact hcode (Option.some.inj (hlower.symm.trans hend))
  have hnone : ∀ steps, steps ⊆ [".", "%2e", "..", ".%2e", "%2e.", "%2e%2e"] →
      steps.contains (Text.lower (String.ofList cs)) = false := fun steps hsteps =>
    eq_false_of_ne_true fun hmem => hapart (hsteps (List.contains_iff_mem.mp hmem))
  exact ⟨hnone _ (by simp), hnone _ (by simp)⟩

/-- Names as they stand in a path. -/
def named (cs : List Char) : List String := (segments cs).map (encodeWith escapedInPath)

/-- Where a segment leads that is not the last. -/
def after (place : List String) (s : List Char) : List String :=
  if isBack s then place.dropLast
  else if isStay s then place
  else place ++ [encodeWith escapedInPath s]

theorem walk_cons {place : List String} {s : List Char} {rest : List (List Char)} (h : rest ≠ []) :
    walk place (s :: rest) = walk (after place s) rest := by
  cases rest with
  | nil => exact absurd rfl h
  | cons t rest =>
    unfold after
    rw [walk]
    · split
      · rfl
      · split <;> rfl
    · exact fun hnil => by cases hnil

theorem walk_append {rest : List (List Char)} (h : rest ≠ []) (ss : List (List Char))
    (place : List String) : walk place (ss ++ rest) = walk (ss.foldl after place) rest := by
  induction ss generalizing place with
  | nil => rfl
  | cons s ss ih =>
    rw [List.cons_append, walk_cons (List.append_ne_nil_of_right_ne_nil ss h), ih]
    rfl

theorem walk_names {ss : List (List Char)} (h : ∀ s ∈ ss, IsName s) (place : List String) :
    walk place ss = place ++ ss.map (encodeWith escapedInPath) := by
  induction ss generalizing place with
  | nil => simp [walk]
  | cons s ss ih =>
    have hs := h s List.mem_cons_self
    cases ss with
    | nil => simp [walk, hs.stays, hs.back]
    | cons t ss =>
      rw [walk_cons (List.cons_ne_nil t ss), after, hs.back, hs.stays,
        ih fun u hu => h u (List.mem_cons_of_mem s hu)]
      simp

/-- What stands after the last slash of a path is the end of it, and only that. -/
theorem exists_pathOf (cs : List Char) :
    ∃ place, ∀ tail, (∀ s ∈ segments tail, IsName s) →
      pathOf (cs ++ '/' :: tail) = place ++ named tail := by
  cases cs with
  | nil => exact ⟨[], fun tail h => walk_names h []⟩
  | cons c cs =>
    refine ⟨(segments cs).foldl after [], fun tail h => ?_⟩
    have hsplit : segments (cs ++ '/' :: tail) = segments cs ++ segments tail :=
      List.splitOnP_append_cons cs tail rfl
    have hpath : pathOf (c :: cs ++ '/' :: tail) = walk [] (segments (cs ++ '/' :: tail)) := rfl
    have hne : segments tail ≠ [] := List.splitOnP_ne_nil isSlash tail
    rw [hpath, hsplit, walk_append hne, walk_names h]
    rfl

theorem pathOf_append {cs tail : List Char} (hslash : cs.getLast? = some '/')
    (htail : ∀ s ∈ segments tail, IsName s) :
    pathOf (cs ++ tail) = (pathOf cs).dropLast ++ named tail := by
  obtain ⟨front, rfl⟩ := List.getLast?_eq_some_iff.mp hslash
  obtain ⟨place, hplace⟩ := exists_pathOf front
  have hnil : ∀ s ∈ segments [], IsName s := by
    intro s hs
    cases List.mem_singleton.mp hs
    exact ⟨by decide +kernel, by decide +kernel⟩
  have hfront : pathOf (front ++ ['/']) = place ++ [""] := hplace [] hnil
  rw [hfront, List.dropLast_concat, List.append_assoc]
  exact hplace tail htail

/-! ## From the host on -/

theorem encodeWith_append (escaped : Char → Bool) (cs ds : List Char) :
    encodeWith escaped (cs ++ ds) = encodeWith escaped cs ++ encodeWith escaped ds := by
  rw [encodeWith, encodeWith, encodeWith, Text.percentEncode, List.flatMap_append, String.ofList_append]
  rfl

def queryOf (cs : List Char) : Option String :=
  match cs.dropWhile (· != '?') with
  | _ :: q => some (encodeWith escapedInQuery q)
  | [] => none

/-- An address from what stands before its path and what stands from there. -/
def atHost (scheme : String) (authority rest : List Char) : Option Url := do
  let host ← hostPort? (splitUser authority).2
  return {
    scheme
    username := (user ((splitUser authority).1.getD [])).1
    password := (user ((splitUser authority).1.getD [])).2
    host := host.1
    port := host.2
    path := pathOf (rest.takeWhile (· != '?'))
    query := queryOf rest }

/-- An address with more at its end: of its query, or of its path when there is no query. -/
def extended (u : Url) (tail : List Char) : Url :=
  match u.query with
  | some q => { u with query := some (q ++ encodeWith escapedInQuery tail) }
  | none => { u with path := u.path.dropLast ++ named tail }

/-- What can only be the end of a path. -/
structure IsTail (cs : List Char) : Prop where
  unmarked : ∀ c ∈ cs, c ≠ '?' ∧ c ≠ '#'
  names : ∀ s ∈ segments cs, IsName s

theorem atHost_append (scheme : String) (authority : List Char) {rest tail : List Char}
    (hslash : rest.getLast? = some '/') (htail : IsTail tail) :
    atHost scheme authority (rest ++ tail) = (atHost scheme authority rest).map (·.extended tail) := by
  unfold atHost
  cases hostPort? (splitUser authority).2 with
  | none => rfl
  | some host =>
    by_cases hmark : '?' ∈ rest
    · have hstop : ∃ c ∈ rest, (c != '?') = false := ⟨'?', hmark, rfl⟩
      have hpath : (rest ++ tail).takeWhile (· != '?') = rest.takeWhile (· != '?') :=
        takeWhile_append_of_stop hstop
      obtain ⟨m, q, hq⟩ := List.exists_cons_of_ne_nil (dropWhile_ne_nil hstop)
      have hquery : queryOf rest = some (encodeWith escapedInQuery q) := by rw [queryOf, hq]
      have hmore : queryOf (rest ++ tail) =
          some (encodeWith escapedInQuery q ++ encodeWith escapedInQuery tail) := by
        rw [queryOf, dropWhile_append_of_stop hstop, hq, ← encodeWith_append]
        rfl
      simp [bind, pure, extended, hpath, hquery, hmore]
    · have hrest : ∀ c ∈ rest, (c != '?') = true := fun c hc => by
        simpa using fun h : c = '?' => hmark (h ▸ hc)
      have hall : ∀ c ∈ rest ++ tail, (c != '?') = true := by
        refine List.forall_mem_append.mpr ⟨hrest, fun c hc => ?_⟩
        simpa using (htail.unmarked c hc).1
      have hquery : queryOf rest = none := by rw [queryOf, List.dropWhile_eq_nil_iff.mpr hrest]
      have hmore : queryOf (rest ++ tail) = none := by
        rw [queryOf, List.dropWhile_eq_nil_iff.mpr hall]
      have hpath : pathOf (rest ++ tail) = (pathOf rest).dropLast ++ named tail :=
        pathOf_append hslash htail.names
      simp [bind, pure, extended, hquery, hmore, List.takeWhile_eq_self_iff.mpr hrest,
        List.takeWhile_eq_self_iff.mpr hall, hpath]

/-! ## After the scheme -/

def endsHost (c : Char) : Bool := isSlash c || c == '?'

/-- An address from what follows its scheme. -/
def afterScheme (scheme : String) (cs : List Char) : Option Url :=
  let cs := (cs.takeWhile (· != '#')).dropWhile isSlash
  atHost scheme (cs.takeWhile (! endsHost ·)) (cs.dropWhile (! endsHost ·))

theorem afterScheme_append (scheme : String) {cs tail : List Char}
    (hslash : cs.getLast? = some '/') (hhost : ∃ c ∈ cs, isSlash c = false) (htail : IsTail tail) :
    afterScheme scheme (cs ++ tail) =
      (afterScheme scheme cs).map fun u => if '#' ∈ cs then u else u.extended tail := by
  unfold afterScheme
  by_cases hmark : '#' ∈ cs
  · rw [takeWhile_append_of_stop ⟨'#', hmark, rfl⟩]
    simp only [hmark, if_true, Option.map_id']
  · have hcs : ∀ c ∈ cs, (c != '#') = true := fun c hc => by
      simpa using fun h : c = '#' => hmark (h ▸ hc)
    have hall : ∀ c ∈ cs ++ tail, (c != '#') = true := by
      refine List.forall_mem_append.mpr ⟨hcs, fun c hc => ?_⟩
      simpa using (htail.unmarked c hc).2
    rw [List.takeWhile_eq_self_iff.mpr hcs, List.takeWhile_eq_self_iff.mpr hall,
      dropWhile_append_of_stop hhost]
    have hlast : (cs.dropWhile isSlash).getLast? = some '/' :=
      (getLast?_dropWhile hhost).trans hslash
    have hstop : ∃ c ∈ cs.dropWhile isSlash, (! endsHost c) = false :=
      ⟨'/', List.mem_of_getLast? hlast, rfl⟩
    dsimp only
    rw [takeWhile_append_of_stop hstop, dropWhile_append_of_stop hstop,
      atHost_append scheme _ ((getLast?_dropWhile hstop).trans hlast) htail]
    simp only [hmark, if_false]

/-- Without a host there is no address. -/
theorem exists_of_afterScheme {scheme : String} {cs : List Char} {u : Url}
    (h : afterScheme scheme cs = some u) : ∃ c ∈ cs, isSlash c = false := by
  by_contra hnone
  have hall : ∀ c ∈ cs.takeWhile (· != '#'), isSlash c = true := by
    intro c hc
    by_contra hc'
    exact hnone ⟨c, (List.takeWhile_sublist _).subset hc, eq_false_of_ne_true hc'⟩
  rw [afterScheme, List.dropWhile_eq_nil_iff.mpr hall] at h
  cases h

/-! ## Whole addresses -/

def isSchemePart (c : Char) : Bool := c.isAlphanum || c == '+' || c == '-' || c == '.'

theorem scheme?_eq_some_iff {cs rest : List Char} {name : String} :
    scheme? cs = some (name, rest) ↔ (∃ c ∈ cs.head?, c.isAlpha = true) ∧
      cs.dropWhile isSchemePart = ':' :: rest ∧
      name = Text.lower (String.ofList (cs.takeWhile isSchemePart)) := by
  cases cs with
  | nil => simp [scheme?]
  | cons c cs =>
    cases hc : c.isAlpha with
    | false => simp [scheme?, hc]
    | true =>
      have hcut : ∀ ds, (c :: cs).dropWhile isSchemePart = ds → (c :: cs).dropWhile
          (fun c => c.isAlphanum || c == '+' || c == '-' || c == '.') = ds := fun _ h => h
      simp only [scheme?, hc, Bool.not_true, Bool.false_eq_true, if_false]
      split
      · rename_i rest' hrest
        constructor
        · rintro ⟨⟩
          exact ⟨⟨c, rfl, hc⟩, hrest, rfl⟩
        · rintro ⟨-, h, rfl⟩
          cases hrest.symm.trans (hcut _ h)
          rfl
      · rename_i hrest
        constructor
        · rintro ⟨⟩
        · rintro ⟨-, h, -⟩
          exact absurd (hcut _ h) (hrest rest)

/-- The scheme of a text with a slash in it stands before that. -/
theorem scheme?_append {cs : List Char} (h : '/' ∈ cs) (tail : List Char) :
    scheme? (cs ++ tail) = (scheme? cs).map fun p => (p.1, p.2 ++ tail) := by
  have hstop : ∃ c ∈ cs, isSchemePart c = false := ⟨'/', h, rfl⟩
  have hhead : (cs ++ tail).head? = cs.head? := List.head?_append_of_ne_nil cs (List.ne_nil_of_mem h)
  cases hs : scheme? cs with
  | some p =>
    obtain ⟨halpha, hrest, hname⟩ := scheme?_eq_some_iff.mp hs
    refine scheme?_eq_some_iff.mpr ⟨hhead ▸ halpha, ?_, ?_⟩
    · rw [dropWhile_append_of_stop hstop, hrest]
      rfl
    · rw [takeWhile_append_of_stop hstop, hname]
  | none =>
    refine Option.eq_none_iff_forall_ne_some.mpr fun p hp => ?_
    obtain ⟨halpha, hrest, -⟩ := scheme?_eq_some_iff.mp hp
    obtain ⟨d, rest, hcut⟩ := List.exists_cons_of_ne_nil (dropWhile_ne_nil hstop)
    rw [dropWhile_append_of_stop hstop, hcut, List.cons_append] at hrest
    obtain ⟨rfl, -⟩ := List.cons.inj hrest
    have hsome := scheme?_eq_some_iff.mpr ⟨hhead ▸ halpha, hcut, rfl⟩
    rw [hs] at hsome
    cases hsome

theorem ofString?_eq (s : String) :
    ofString? s = (scheme? (cleaned s)).bind fun p => afterScheme p.1 p.2 := rfl

/-- Characters that are left out wherever they stand. -/
def isTidy (c : Char) : Bool := c != '\t' && c != '\n' && c != '\r'

def tidied (s : String) : List Char := s.toList.filter isTidy

theorem cleaned_eq {s : String} (h : ∀ c ∈ s.toList.getLast?, ¬ c.val ≤ 0x20) :
    cleaned s = (s.toList.dropWhile (·.val ≤ 0x20)).filter isTidy := by
  have hlast : ∀ c ∈ s.toList.getLast?, decide (c.val ≤ 0x20) = false :=
    fun c hc => decide_eq_false (h c hc)
  rw [cleaned, Text.trimBy_of_getLast? hlast]
  rfl

section

variable {s t : String}

theorem not_le_of_slash (h : s.toList.getLast? = some '/') :
    ∀ c ∈ s.toList.getLast?, ¬ c.val ≤ 0x20 := by
  rw [h]
  rintro c ⟨⟩
  decide

theorem cleaned_append (hs : s.toList.getLast? = some '/')
    (ht : ∀ c ∈ t.toList.getLast?, ¬ c.val ≤ 0x20) : cleaned (s ++ t) = cleaned s ++ tidied t := by
  have hwhole : ∀ c ∈ (s ++ t).toList.getLast?, ¬ c.val ≤ 0x20 := by
    intro c hc
    rw [String.toList_append, List.getLast?_append, Option.mem_def, Option.or_eq_some_iff] at hc
    obtain hc | ⟨-, hc⟩ := hc
    · exact ht c hc
    · exact not_le_of_slash hs c hc
  have hstop : ∃ c ∈ s.toList, decide (c.val ≤ 0x20) = false := ⟨'/', List.mem_of_getLast? hs, rfl⟩
  rw [cleaned_eq (not_le_of_slash hs), cleaned_eq hwhole, String.toList_append,
    dropWhile_append_of_stop hstop, List.filter_append]
  rfl

theorem getLast?_cleaned (hs : s.toList.getLast? = some '/') :
    (cleaned s).getLast? = some '/' := by
  have hstop : ∃ c ∈ s.toList, decide (c.val ≤ 0x20) = false := ⟨'/', List.mem_of_getLast? hs, rfl⟩
  obtain ⟨front, hfront⟩ := List.getLast?_eq_some_iff.mp ((getLast?_dropWhile hstop).trans hs)
  rw [cleaned_eq (not_le_of_slash hs), hfront, List.filter_append]
  exact List.getLast?_concat

theorem mem_cleaned (hs : s.toList.getLast? = some '/') {c : Char} (hc : ¬ c.val ≤ 0x20) :
    c ∈ cleaned s ↔ c ∈ s.toList := by
  have hne : ∀ d : Char, d.val ≤ 0x20 → (c != d) = true := by
    intro d hd
    simpa using fun h : c = d => hc (h ▸ hd)
  have htidy : isTidy c = true := by
    rw [isTidy, hne '\t' (by decide), hne '\n' (by decide), hne '\r' (by decide)]
    rfl
  rw [cleaned_eq (not_le_of_slash hs), List.mem_filter, mem_dropWhile (decide_eq_false hc)]
  exact and_iff_left htidy

/-- Whether a host could follow the scheme: not only slashes do. -/
def NamesHost (s : String) : Prop :=
  ∀ p, scheme? (cleaned s) = some p → ∃ c ∈ p.2, isSlash c = false

/-- What may be put at the end of an address. -/
structure IsEnd (s : String) : Prop where
  last : ∀ c ∈ s.toList.getLast?, ¬ c.val ≤ 0x20
  tail : IsTail (tidied s)

theorem ofString?_append (hs : s.toList.getLast? = some '/') (hhost : NamesHost s) (ht : IsEnd t) :
    ofString? (s ++ t) = (ofString? s).map fun u =>
      if '#' ∈ s.toList then u else u.extended (tidied t) := by
  have hcleaned := getLast?_cleaned hs
  have hslash : '/' ∈ cleaned s := List.mem_of_getLast? hcleaned
  rw [ofString?_eq, ofString?_eq, cleaned_append hs ht.last, scheme?_append hslash]
  cases hscheme : scheme? (cleaned s) with
  | none => rfl
  | some p =>
    obtain ⟨-, hrest, -⟩ := scheme?_eq_some_iff.mp hscheme
    have hlast : (':' :: p.2).getLast? = some '/' := by
      rw [← hrest, getLast?_dropWhile ⟨'/', hslash, rfl⟩, hcleaned]
    have hend : p.2.getLast? = some '/' := by
      cases hp : p.2 with
      | nil =>
        rw [hp] at hlast
        cases hlast
      | cons c rest => rwa [hp, List.getLast?_cons_cons] at hlast
    have hmark : '#' ∈ p.2 ↔ '#' ∈ s.toList := by
      have hcolon : '#' ∈ ':' :: p.2 ↔ '#' ∈ p.2 := List.mem_cons.trans (or_iff_right (by decide))
      rw [← hcolon, ← hrest, mem_dropWhile rfl, mem_cleaned hs (by decide)]
    have hmore := afterScheme_append p.1 hend (hhost p hscheme) ht.tail
    simp only [hmark] at hmore
    exact hmore

/-- So it is with everything that is an address already … -/
theorem NamesHost.of_ofString? {u : Url} (h : ofString? s = some u) : NamesHost s := by
  intro p hp
  rw [ofString?_eq, hp] at h
  exact exists_of_afterScheme h

/-- … and with what goes on after a slash. -/
theorem NamesHost.append (hs : s.toList.getLast? = some '/')
    (ht : ∀ c ∈ t.toList.getLast?, ¬ c.val ≤ 0x20) (h : ∃ c ∈ tidied t, isSlash c = false) :
    NamesHost (s ++ t) := by
  intro p hp
  rw [cleaned_append hs ht, scheme?_append (List.mem_of_getLast? (getLast?_cleaned hs)),
    Option.map_eq_some_iff] at hp
  obtain ⟨q, -, rfl⟩ := hp
  obtain ⟨c, hc, hslash⟩ := h
  exact ⟨c, List.mem_append_right q.2 hc, hslash⟩

end

end FeedPoller.Http.Url
