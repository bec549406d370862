/-
  Laws of tables.

  A table is seen through two views. `Table.get?` gives the latest level of a name and
  the site of its first definition, and `Table.definedNames` gives the names that have a
  site, in table order. `get?_assign` and `definedNames_assign` say what one write does to
  each of them. The second one needs that no name has two rows, which every write keeps
  (`nodup_names_assign`). A directive is a run of writes without a site (`Table.mention`).

  `Frame.records_eq_filterMap`: the records of a frame are determined by the two views.
-/
import MethodVisibility.Record

namespace MethodVisibility

namespace Table

/-- The names that have a site, in table order. -/
def definedNames (t : Table) : List String :=
  (t.entries.filter (·.2.site.isSome)).map (·.1)

@[simp] theorem get?_empty (id : String) : empty.get? id = none := rfl

@[simp] theorem definedNames_empty : empty.definedNames = [] := rfl

@[simp] theorem names_empty : empty.names = [] := rfl

/-! ## Lookup -/

theorem lookup_cons_eq_ite (key : String) (e : Entry) (rows : List (String × Entry))
    (id : String) :
    ((key, e) :: rows).lookup id = if id = key then some e else rows.lookup id := by
  rw [List.lookup_cons]
  by_cases h : id = key
  · simp [h]
  · simp [h, beq_eq_false_iff_ne.mpr h]

theorem get?_append (t : Table) (name : String) (e : Entry) (id : String) :
    (t.append name e).get? id = (t.get? id).or (if id = name then some e else none) := by
  simp [get?, append, List.lookup_append, lookup_cons_eq_ite]

theorem get?_update (t : Table) (name : String) (change : Entry → Entry) (id : String) :
    (t.update name change).get? id =
      if id = name then (t.get? id).map change else t.get? id := by
  obtain ⟨rows⟩ := t
  simp only [get?, update]
  induction rows with
  | nil => simp
  | cons row rows ih =>
    obtain ⟨key, e⟩ := row
    rw [List.map_cons]
    by_cases hkey : key = name
    · subst hkey
      rw [if_pos rfl, lookup_cons_eq_ite, lookup_cons_eq_ite, ih]
      by_cases hid : id = key <;> simp [hid]
    · rw [if_neg hkey, lookup_cons_eq_ite, lookup_cons_eq_ite, ih]
      by_cases hid : id = key
      · subst hid
        simp [hkey]
      · simp [hid]

theorem get?_erase (t : Table) (name id : String) :
    (t.erase name).get? id = if id = name then none else t.get? id := by
  obtain ⟨rows⟩ := t
  simp only [get?, erase]
  induction rows with
  | nil => simp
  | cons row rows ih =>
    obtain ⟨key, e⟩ := row
    by_cases hkey : key = name
    · subst hkey
      rw [List.filter_cons_of_neg (by simp), lookup_cons_eq_ite, ih]
      by_cases hid : id = key <;> simp [hid]
    · rw [List.filter_cons_of_pos (by simpa using hkey), lookup_cons_eq_ite,
        lookup_cons_eq_ite, ih]
      by_cases hid : id = key
      · subst hid
        simp [hkey]
      · simp [hid]

/-- The site that a name has in a table. -/
def site? (t : Table) (name : String) : Option Site :=
  (t.get? name).bind (·.site)

/-- A write sets the level of its name and gives it a site if it had none. Other names
    are left alone. -/
theorem get?_assign (t : Table) (name : String) (level : Level) (site : Option Site)
    (id : String) :
    (t.assign name level site).get? id =
      if id = name then some ⟨level, (t.site? name).or site⟩ else t.get? id := by
  unfold assign site?
  cases hold : t.get? name with
  | none =>
    rw [get?_append]
    by_cases hid : id = name
    · subst hid
      simp [hold]
    · simp [hid]
  | some old =>
    obtain ⟨oldLevel, oldSite⟩ := old
    by_cases hid : id = name
    · subst hid
      cases oldSite <;> cases site <;> simp [get?_append, get?_erase, get?_update, hold]
    · cases oldSite <;> cases site <;> simp [get?_append, get?_erase, get?_update, hid]

/-! ## Names -/

theorem mem_names_iff (t : Table) (name : String) : name ∈ t.names ↔ (t.get? name).isSome := by
  rw [get?, List.lookup_isSome_iff]
  simp [names]

theorem names_update (t : Table) (name : String) (change : Entry → Entry) :
    (t.update name change).names = t.names := by
  simp only [names, update, List.map_map]
  apply List.map_congr_left
  intro row _
  simp only [Function.comp]
  split <;> rfl

theorem names_append (t : Table) (name : String) (e : Entry) :
    (t.append name e).names = t.names ++ [name] := by
  simp [names, append]

theorem names_erase (t : Table) (name : String) :
    (t.erase name).names = t.names.filter (· ≠ name) := by
  simp [names, erase, List.filter_map, Function.comp_def]

theorem nodup_names_append {t : Table} (h : t.names.Nodup) {name : String}
    (hname : name ∉ t.names) (e : Entry) : (t.append name e).names.Nodup := by
  rw [names_append, List.nodup_append]
  refine ⟨h, by simp, ?_⟩
  intro a ha b hb hab
  rw [List.mem_singleton] at hb
  exact hname (hb ▸ hab ▸ ha)

/-- No write gives a name a second row. -/
theorem nodup_names_assign {t : Table} (h : t.names.Nodup) (name : String) (level : Level)
    (site : Option Site) : (t.assign name level site).names.Nodup := by
  unfold assign
  split
  · next hnone =>
    refine nodup_names_append h ?_ _
    rw [mem_names_iff, hnone]
    simp
  · split
    · have herased : (t.erase name).names.Nodup := by
        rw [names_erase]
        exact h.filter _
      refine nodup_names_append herased ?_ _
      simp [names_erase]
    · rw [names_update]
      exact h

/-! ## Defined names -/

theorem definedNames_append (t : Table) (name : String) (e : Entry) :
    (t.append name e).definedNames =
      t.definedNames ++ (if e.site.isSome then [name] else []) := by
  simp only [definedNames, append, List.filter_append, List.map_append, List.filter_cons,
    List.filter_nil]
  split <;> rfl

theorem definedNames_setLevel (t : Table) (name : String) (level : Level) :
    (t.update name ({ · with level := level })).definedNames = t.definedNames := by
  simp only [definedNames, update, List.filter_map, List.map_map]
  have hsite : ((fun row : String × Entry => row.2.site.isSome) ∘
      fun row => if row.1 = name then (row.1, { row.2 with level := level }) else row) =
      fun row => row.2.site.isSome := by
    funext row
    simp only [Function.comp]
    split <;> rfl
  rw [hsite]
  apply List.map_congr_left
  intro row _
  simp only [Function.comp]
  split <;> rfl

/-- A row of a table without repeated names is what lookup finds. -/
theorem get?_of_mem {t : Table} (h : t.names.Nodup) {row : String × Entry}
    (hrow : row ∈ t.entries) : t.get? row.1 = some row.2 := by
  obtain ⟨rows⟩ := t
  simp only [get?, names] at h hrow ⊢
  induction rows with
  | nil => simp at hrow
  | cons first rows ih =>
    rw [List.map_cons, List.nodup_cons] at h
    rcases List.mem_cons.mp hrow with rfl | hrest
    · rw [lookup_cons_eq_ite, if_pos rfl]
    · have hne : ¬ row.1 = first.1 := by
        intro heq
        exact h.1 (heq ▸ List.mem_map_of_mem hrest)
      rw [lookup_cons_eq_ite, if_neg hne]
      exact ih h.2 hrest

theorem mem_definedNames_iff {t : Table} (h : t.names.Nodup) (name : String) :
    name ∈ t.definedNames ↔ (t.site? name).isSome := by
  constructor
  · intro hmem
    obtain ⟨row, hrow, rfl⟩ := List.mem_map.mp hmem
    obtain ⟨hin, hsite⟩ := List.mem_filter.mp hrow
    rw [site?, get?_of_mem h hin]
    exact hsite
  · intro hsome
    obtain ⟨site, hsite⟩ := Option.isSome_iff_exists.mp hsome
    obtain ⟨e, hget, he⟩ := Option.bind_eq_some_iff.mp hsite
    have hrow : (name, e) ∈ t.entries := by
      obtain ⟨l₁, l₂, hsplit, _⟩ := List.lookup_eq_some_iff.mp hget
      rw [hsplit]
      simp
    refine List.mem_map.mpr ⟨(name, e), List.mem_filter.mpr ⟨hrow, ?_⟩, rfl⟩
    simp [he]

/-- A name that waits without a site is not among the defined ones, so dropping it does
    not change them. -/
theorem definedNames_erase_of_site_none {t : Table} (h : t.names.Nodup) {name : String}
    (hnone : t.site? name = none) : (t.erase name).definedNames = t.definedNames := by
  simp only [definedNames, erase, List.filter_filter]
  congr 1
  apply List.filter_congr
  intro row hrow
  cases hsite : row.2.site with
  | none => simp
  | some site =>
    have hne : row.1 ≠ name := by
      rintro rfl
      rw [site?, get?_of_mem h hrow] at hnone
      simp [hsite] at hnone
    simp [hne]

/-- The first definition of a name puts it last among the defined names; nothing else
    changes them. -/
theorem definedNames_assign {t : Table} (h : t.names.Nodup) (name : String) (level : Level)
    (site : Option Site) :
    (t.assign name level site).definedNames =
      t.definedNames ++
        (if site.isSome && (t.site? name).isNone then [name] else []) := by
  unfold assign
  cases hold : t.get? name with
  | none =>
    have hsite : t.site? name = none := by rw [site?, hold]; rfl
    rw [definedNames_append, hsite]
    simp
  | some old =>
    have hsite : t.site? name = old.site := by rw [site?, hold]; rfl
    obtain ⟨oldLevel, oldSite⟩ := old
    simp only at hsite
    rw [hsite]
    cases oldSite with
    | some first => simp [definedNames_setLevel]
    | none =>
      cases site with
      | none => simp [definedNames_setLevel]
      | some s => simp [definedNames_append, definedNames_erase_of_site_none h hsite]

theorem site?_assign (t : Table) (name : String) (level : Level) (site : Option Site)
    (id : String) :
    (t.assign name level site).site? id =
      if id = name then (t.site? id).or site else t.site? id := by
  rw [site?, get?_assign]
  by_cases h : id = name
  · subst h
    simp
  · simp [h, site?]

/-! ## Directives -/

/-- Writes a level for each of several names, without a definition. -/
def mention (t : Table) (names : List String) (level : Level) : Table :=
  names.foldl (fun t name => t.assign name level none) t

theorem nodup_names_mention {t : Table} (h : t.names.Nodup) (names : List String)
    (level : Level) : (t.mention names level).names.Nodup := by
  induction names generalizing t with
  | nil => exact h
  | cons name rest ih => exact ih (nodup_names_assign h name level none)

theorem site?_mention (t : Table) (names : List String) (level : Level) (id : String) :
    (t.mention names level).site? id = t.site? id := by
  induction names generalizing t with
  | nil => rfl
  | cons name rest ih =>
    refine (ih (t.assign name level none)).trans ?_
    rw [site?_assign]
    simp

theorem get?_mention (t : Table) (names : List String) (level : Level) (id : String) :
    (t.mention names level).get? id =
      if id ∈ names then some ⟨level, t.site? id⟩ else t.get? id := by
  induction names generalizing t with
  | nil => simp [mention]
  | cons name rest ih =>
    refine (ih (t.assign name level none)).trans ?_
    rw [site?_assign, get?_assign]
    by_cases hrest : id ∈ rest
    · simp [hrest]
    · by_cases hname : id = name
      · subst hname
        simp [hrest]
      · simp [hrest, hname]

theorem definedNames_mention {t : Table} (h : t.names.Nodup) (names : List String)
    (level : Level) : (t.mention names level).definedNames = t.definedNames := by
  induction names generalizing t with
  | nil => rfl
  | cons name rest ih =>
    refine (ih (nodup_names_assign h name level none)).trans ?_
    rw [definedNames_assign h]
    simp

end Table

theorem Frame.assignAll_eq (f : Frame) (names : List String) (level : Level) :
    f.assignAll names level = { f with table := f.table.mention names level } := by
  unfold assignAll Table.mention
  induction names generalizing f with
  | nil => rfl
  | cons name rest ih => exact ih (f.assign name level none)

/-- The record of a defined name of a frame. -/
def Frame.recordOf? (f : Frame) (name : String) : Option MethodRecord :=
  (f.table.get? name).bind fun e => f.record? (name, e)

/-- The records of a frame are those of its defined names, in order. -/
theorem Frame.records_eq_filterMap (f : Frame) (h : f.table.names.Nodup) :
    f.records = f.table.definedNames.filterMap f.recordOf? := by
  have hrows : ∀ rows : List (String × Entry), (∀ row ∈ rows, row ∈ f.table.entries) →
      rows.filterMap f.record? =
        ((rows.filter (·.2.site.isSome)).map (·.1)).filterMap f.recordOf? := by
    intro rows
    induction rows with
    | nil => intro _; rfl
    | cons row rows ih =>
      intro hmem
      have hrest := ih fun r hr => hmem r (List.mem_cons_of_mem _ hr)
      have hget := Table.get?_of_mem h (hmem row List.mem_cons_self)
      cases hsite : row.2.site with
      | none => simp [record?, hsite, hrest]
      | some site => simp [record?, recordOf?, hget, hsite, hrest]
  exact hrows _ fun _ hr => hr

end MethodVisibility
