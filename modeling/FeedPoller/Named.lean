/-! Values by name. The list is in ascending order of names, by code points, each name once;
`insert` keeps that order, and of two values for one name the later stays. -/

namespace FeedPoller

abbrev Named (α : Type) := List (String × α)

namespace Named

variable {α : Type}

/-- Adds a value, in place of an earlier one of that name. -/
def insert (name : String) (value : α) : Named α → Named α
  | [] => [(name, value)]
  | (k, v) :: rest =>
    if name < k then (name, value) :: (k, v) :: rest
    else if name = k then (name, value) :: rest
    else (k, v) :: insert name value rest

def get? (name : String) (values : Named α) : Option α := values.lookup name

/-- Adds the entries in turn, so that the last one of a name stays. -/
def ofList (entries : List (String × α)) : Named α :=
  entries.foldl (fun acc e => acc.insert e.1 e.2) []

theorem get?_insert_self (name : String) (value : α) (values : Named α) :
    (values.insert name value).get? name = some value := by
  induction values with
  | nil => simp [insert, get?]
  | cons e rest ih =>
    obtain ⟨k, v⟩ := e
    simp only [insert]
    split
    · simp [get?]
    · split
      · simp [get?]
      · rename_i hne
        have hb : (name == k) = false := by simpa using hne
        simpa [get?, List.lookup_cons, hb] using ih

theorem get?_insert_of_ne {name other : String} (value : α) (values : Named α)
    (h : other ≠ name) : (values.insert name value).get? other = values.get? other := by
  have hb : (other == name) = false := by simpa using h
  induction values with
  | nil => simp [insert, get?, List.lookup_cons, hb]
  | cons e rest ih =>
    obtain ⟨k, v⟩ := e
    simp only [insert]
    split
    · simp [get?, List.lookup_cons, hb]
    · split
      · rename_i hk
        subst hk
        simp [get?, List.lookup_cons, hb]
      · simp only [get?, List.lookup_cons] at ih ⊢
        split <;> simp_all

/-! ## Order -/

/-- The names come in ascending order, each once. -/
def Ascending (values : Named α) : Prop := values.Pairwise fun a b => a.1 < b.1

theorem ascending_of_names {values : Named α} (names : List String)
    (h : (values.map Prod.fst).Sublist names) (hnames : names.Pairwise (· < ·)) :
    values.Ascending :=
  List.pairwise_map.mp (hnames.sublist h)

theorem Ascending.lt_of_append_cons {before after : Named α} {e : String × α}
    (h : Ascending (before ++ e :: after)) : ∀ b ∈ before, b.1 < e.1 := fun b hb =>
  (List.pairwise_append.mp h).2.2 b hb e List.mem_cons_self

theorem mem_insert {name : String} {value : α} {values : Named α} {e : String × α}
    (h : e ∈ values.insert name value) : e = (name, value) ∨ e ∈ values := by
  induction values with
  | nil => exact .inl (List.mem_singleton.mp h)
  | cons a rest ih =>
    simp only [insert] at h
    split at h
    · exact List.mem_cons.mp h
    · split at h
      · exact (List.mem_cons.mp h).imp id (List.mem_cons_of_mem _)
      · obtain rfl | h := List.mem_cons.mp h
        · exact .inr List.mem_cons_self
        · exact (ih h).imp id (List.mem_cons_of_mem _)

theorem Ascending.insert {values : Named α} (h : values.Ascending) (name : String) (value : α) :
    (values.insert name value).Ascending := by
  induction values with
  | nil => exact List.pairwise_singleton ..
  | cons a rest ih =>
    obtain ⟨hfirst, hrest⟩ := List.pairwise_cons.mp h
    simp only [Named.insert]
    split
    · rename_i hlt
      refine List.pairwise_cons.mpr ⟨fun e he => ?_, h⟩
      obtain rfl | he := List.mem_cons.mp he
      · exact hlt
      · exact String.lt_trans hlt (hfirst e he)
    · split
      · rename_i heq
        exact List.pairwise_cons.mpr ⟨fun e he => heq ▸ hfirst e he, hrest⟩
      · rename_i hle hne
        refine List.pairwise_cons.mpr ⟨fun e he => ?_, ih hrest⟩
        obtain rfl | he := mem_insert he
        · have := String.not_lt.mp hle
          grind
        · exact hfirst e he

/-- A name takes its place between those before it and those after it. -/
theorem insert_between {name : String} (value : α) {before after : Named α}
    (hbefore : ∀ e ∈ before, e.1 < name) (hafter : ∀ e ∈ after, name < e.1) :
    (before ++ after).insert name value = before ++ (name, value) :: after := by
  induction before with
  | nil =>
    cases after with
    | nil => rfl
    | cons e rest => rw [List.nil_append, insert, if_pos (hafter e List.mem_cons_self)]; rfl
  | cons e rest ih =>
    obtain ⟨hfirst, hrest⟩ := List.forall_mem_cons.mp hbefore
    have hnot : ¬ name < e.1 := fun hlt => String.lt_irrefl _ (String.lt_trans hfirst hlt)
    have hne : name ≠ e.1 := fun heq => String.lt_irrefl e.1 (heq ▸ hfirst)
    rw [List.cons_append, insert, if_neg hnot, if_neg hne, ih hrest, List.cons_append]

/-- A name after all others takes the last place. -/
theorem insert_of_forall_lt {name : String} (value : α) {values : Named α}
    (h : ∀ e ∈ values, e.1 < name) : values.insert name value = values ++ [(name, value)] := by
  have hnone : ∀ e ∈ ([] : Named α), name < e.1 := nofun
  rw [← insert_between value h hnone, List.append_nil]

theorem insert_insert (name : String) (value value' : α) (values : Named α) :
    (values.insert name value).insert name value' = values.insert name value' := by
  induction values with
  | nil => simp [insert]
  | cons e rest ih =>
    obtain ⟨k, v⟩ := e
    by_cases hlt : name < k
    · simp [insert, hlt]
    · by_cases heq : name = k
      · simp [insert, heq]
      · simp [insert, hlt, heq, ih]

theorem ascending_ofList (entries : List (String × α)) : (ofList entries).Ascending := by
  have hfold : ∀ acc : Named α, acc.Ascending →
      (entries.foldl (fun acc e => acc.insert e.1 e.2) acc).Ascending := by
    induction entries with
    | nil => exact fun _ hacc => hacc
    | cons e rest ih => exact fun acc hacc => ih _ (hacc.insert e.1 e.2)
  exact hfold [] .nil

theorem get?_eq_none_of_ne {name : String} {values : Named α} (h : ∀ e ∈ values, e.1 ≠ name) :
    values.get? name = none :=
  List.lookup_eq_none_iff.mpr fun e he => by simpa using (h e he).symm

theorem get?_eq_none {name : String} {values : Named α} (h : ∀ e ∈ values, name < e.1) :
    values.get? name = none :=
  get?_eq_none_of_ne fun e he heq => String.lt_irrefl name (heq ▸ h e he)

theorem get?_nil (name : String) : get? name ([] : Named α) = none := rfl

theorem get?_cons (name : String) (e : String × α) (rest : Named α) :
    get? name (e :: rest) = if name = e.1 then some e.2 else get? name rest := by
  obtain ⟨k, v⟩ := e
  by_cases h : name = k
  · simp [get?, h]
  · have hb : (name == k) = false := by simpa using h
    simp [get?, List.lookup_cons, hb, h]

/-- A name before the first one is not there. -/
theorem Ascending.get?_of_lt {name : String} {e : String × α} {rest : Named α}
    (h : Ascending (e :: rest)) (hlt : name < e.1) : get? name (e :: rest) = none := by
  refine get?_eq_none fun f hf => ?_
  obtain rfl | hf := List.mem_cons.mp hf
  · exact hlt
  · exact String.lt_trans hlt ((List.pairwise_cons.mp h).1 f hf)

/-- What stands under each name says all. -/
theorem Ascending.ext {a b : Named α} (ha : a.Ascending) (hb : b.Ascending)
    (h : ∀ name, get? name a = get? name b) : a = b := by
  induction a generalizing b with
  | nil =>
    cases b with
    | nil => rfl
    | cons y b => simpa [get?_nil, get?_cons] using h y.1
  | cons x a ih =>
    cases b with
    | nil => simpa [get?_nil, get?_cons] using h x.1
    | cons y b =>
      -- the lesser of the two first names would be missing from the other list
      have hxy : ¬ x.1 < y.1 := fun hlt => by
        simpa [get?_cons x.1 x, hb.get?_of_lt hlt] using h x.1
      have hyx : ¬ y.1 < x.1 := fun hlt => by
        simpa [get?_cons y.1 y, ha.get?_of_lt hlt] using h y.1
      have hname : x.1 = y.1 := String.le_antisymm (String.not_lt.mp hyx) (String.not_lt.mp hxy)
      have hvalue : x.2 = y.2 := by simpa [get?_cons, hname] using h x.1
      obtain rfl : x = y := Prod.ext hname hvalue
      obtain ⟨hxa, ha'⟩ := List.pairwise_cons.mp ha
      obtain ⟨hxb, hb'⟩ := List.pairwise_cons.mp hb
      refine congrArg (x :: ·) (ih ha' hb' fun name => ?_)
      by_cases hx : name = x.1
      · rw [hx, get?_eq_none hxa, get?_eq_none hxb]
      · simpa [get?_cons, hx] using h name

/-- An insertion puts one entry in the place of all that had its name. -/
theorem Ascending.insert_perm {values : Named α} (h : values.Ascending) (name : String) (value : α) :
    (values.insert name value).Perm ((name, value) :: values.filter fun e => e.1 ≠ name) := by
  have hkept : ∀ {rest : Named α}, (∀ e ∈ rest, name < e.1) →
      (rest.filter fun e => e.1 ≠ name) = rest := by
    intro rest hrest
    refine List.filter_eq_self.mpr fun e he => decide_eq_true fun heq => ?_
    exact String.lt_irrefl _ (heq ▸ hrest e he)
  induction values with
  | nil => exact .refl _
  | cons a rest ih =>
    obtain ⟨hfirst, hrest⟩ := List.pairwise_cons.mp h
    simp only [Named.insert]
    split
    · rename_i hlt
      rw [hkept]
      intro e he
      obtain rfl | he := List.mem_cons.mp he
      · exact hlt
      · exact String.lt_trans hlt (hfirst e he)
    · split
      · rename_i heq
        subst heq
        rw [List.filter_cons_of_neg (by simp), hkept hfirst]
      · rename_i hne
        rw [List.filter_cons_of_pos (by simpa using Ne.symm hne)]
        exact ((ih hrest).cons _).trans (.swap ..)

/-! ## Entries in any order -/

/-- Among entries with different names a value is found just when it is there. -/
theorem get?_eq_some_iff {values : Named α} (h : (values.map Prod.fst).Nodup) {name : String}
    {value : α} : get? name values = some value ↔ (name, value) ∈ values := by
  induction values with
  | nil => simp [get?_nil]
  | cons e rest ih =>
    obtain ⟨hnew, hrest⟩ := List.nodup_cons.mp h
    rw [get?_cons, List.mem_cons]
    split
    · rename_i hname
      subst hname
      have hmissing : (e.1, value) ∉ rest := fun hmem => hnew (List.mem_map.mpr ⟨_, hmem, rfl⟩)
      rw [or_iff_left hmissing, Option.some.injEq]
      exact ⟨fun hvalue => hvalue ▸ rfl, fun heq => (congrArg Prod.snd heq).symm⟩
    · rename_i hname
      rw [ih hrest]
      exact ⟨.inr, fun hmem => hmem.resolve_left fun heq => hname (congrArg Prod.fst heq)⟩

/-- So their order does not matter. -/
theorem get?_of_perm {values values' : Named α} (h : (values.map Prod.fst).Nodup)
    (hperm : values'.Perm values) (name : String) : get? name values' = get? name values := by
  refine Option.ext fun value => ?_
  rw [get?_eq_some_iff h, get?_eq_some_iff ((hperm.map _).nodup_iff.mpr h), hperm.mem_iff]

theorem Ascending.nodup {values : Named α} (h : values.Ascending) :
    (values.map Prod.fst).Nodup :=
  List.nodup_iff_pairwise_ne.mpr (List.pairwise_map.mpr (h.imp String.ne_of_lt))

/-- The entries alone say all. -/
theorem Ascending.ext_mem {a b : Named α} (ha : a.Ascending) (hb : b.Ascending)
    (h : ∀ e, e ∈ a ↔ e ∈ b) : a = b := by
  refine ha.ext hb fun name => Option.ext fun value => ?_
  rw [get?_eq_some_iff ha.nodup, get?_eq_some_iff hb.nodup, h]

end Named
end FeedPoller
