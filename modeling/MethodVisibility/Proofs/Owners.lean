/-
  The owners of records.

  A frame takes its owner from the frame around it, one name at a time. Seen from the open
  scopes as a whole, the owner is the qualified name of the type bodies up to the innermost one
  that has no name (`ownerName?`): a body without a name cuts off all that is around it. If every
  open type body has a name, this is the qualified name of them all (`ownerName?_of_named`).

  `Run.Effect` lists what an event can do to a run. A run `Declares` an identifier, with a site and
  an owner, if it has a record of it or an open frame that will give one. An event adds to this
  only what it defines, under the owner of the innermost frame (`Run.Declares.of_step`), and takes
  nothing away (`Run.Declares.step`).

  `owners_of_records`: the records of a stream have the owners of their definitions.
-/
import Mathlib.Data.List.TakeWhile
import MethodVisibility.Proofs.Reading

namespace MethodVisibility

/-! ## Qualified names -/

namespace ScopeHead

/-- The name of a type body, if it is one that has a name. -/
def bodyName? (head : ScopeHead) : Option String :=
  if head.1 = .typeBody then head.2.filter (· ≠ "") else none

/-- Whether a scope is a type body whose name is absent or empty. -/
def isUnnamed (head : ScopeHead) : Bool :=
  head.1 = .typeBody && (bodyName? head).isNone

theorem bodyName?_eq_some_iff {kind : ScopeKind} {name : Option String} {text : String} :
    bodyName? (kind, name) = some text ↔ kind = .typeBody ∧ name = some text ∧ text ≠ "" := by
  by_cases hkind : kind = .typeBody
  · simp [bodyName?, hkind, Option.filter_eq_some_iff]
  · simp [bodyName?, hkind]

theorem isUnnamed_iff {kind : ScopeKind} {name : Option String} :
    isUnnamed (kind, name) = true ↔ kind = .typeBody ∧ (name = none ∨ name = some "") := by
  by_cases hkind : kind = .typeBody
  · cases name <;> simp [isUnnamed, bodyName?, hkind]
  · simp [isUnnamed, hkind]

end ScopeHead

/-- The qualified name that the type bodies among open scopes make, innermost scope first. -/
def qualifiedName? (heads : List ScopeHead) : Option String :=
  match heads.filterMap ScopeHead.bodyName? with
  | [] => none
  | names => some ("::".intercalate names.reverse)

/-- The owner of definitions where these scopes are open, innermost first. -/
def ownerName? (heads : List ScopeHead) : Option String :=
  (qualifiedName? (heads.takeWhile fun head => !ScopeHead.isUnnamed head)).or
    ((heads.find? ScopeHead.isUnnamed).bind (·.2))

/-- The open scopes after a stream, innermost first. -/
def openScopes (events : List Event) : List ScopeHead :=
  events.foldl headsAfter [(.topLevel, none)]

theorem qualifiedName?_cons_of_none {head : ScopeHead} (h : ScopeHead.bodyName? head = none)
    (heads : List ScopeHead) : qualifiedName? (head :: heads) = qualifiedName? heads := by
  rw [qualifiedName?, List.filterMap_cons_none h, qualifiedName?]

theorem qualifiedName?_cons_of_some {head : ScopeHead} {name : String}
    (h : ScopeHead.bodyName? head = some name) (heads : List ScopeHead) :
    qualifiedName? (head :: heads) =
      some (match qualifiedName? heads with
        | none => name
        | some outer => String.join [outer, "::", name]) := by
  rw [qualifiedName?, List.filterMap_cons_some h, qualifiedName?]
  cases hnames : heads.filterMap ScopeHead.bodyName? with
  | nil => simp
  | cons inner outer =>
    have hjoin : "::".intercalate ((inner :: outer).reverse ++ [name]) =
        "::".intercalate (inner :: outer).reverse ++ "::" ++ "::".intercalate [name] :=
      String.intercalate_append_of_ne_nil (by simp) (by simp)
    rw [← List.reverse_cons] at hjoin
    simp only [hjoin, String.intercalate_singleton]
    simp [String.join]

/-- A qualified name is never empty. -/
theorem qualifiedName?_ne_empty (heads : List ScopeHead) : qualifiedName? heads ≠ some "" := by
  induction heads with
  | nil => simp [qualifiedName?]
  | cons head heads ih =>
    cases hname : ScopeHead.bodyName? head with
    | none => rwa [qualifiedName?_cons_of_none hname]
    | some name =>
      have hne : name ≠ "" := (ScopeHead.bodyName?_eq_some_iff.mp hname).2.2
      rw [qualifiedName?_cons_of_some hname]
      cases qualifiedName? heads with
      | none => simpa using hne
      | some outer => simp [String.join]

/-- A scope qualifies the owner around it if it is a type body, and keeps it if it is not. -/
theorem ownerName?_cons (kind : ScopeKind) (name : Option String) (heads : List ScopeHead) :
    ownerName? ((kind, name) :: heads) =
      if kind = .typeBody then Frame.qualify (ownerName? heads) name else ownerName? heads := by
  rw [ownerName?, List.takeWhile_cons, List.find?_cons]
  cases hunnamed : ScopeHead.isUnnamed (kind, name) with
  | true =>
    -- the owner is the name itself, absent or empty
    obtain ⟨rfl, rfl | rfl⟩ := ScopeHead.isUnnamed_iff.mp hunnamed
    · cases ownerName? heads <;> rfl
    · cases ownerName? heads <;> simp [Frame.qualify, qualifiedName?]
  | false =>
    cases hname : ScopeHead.bodyName? (kind, name) with
    | none =>
      have hkind : kind ≠ .typeBody := by
        rintro rfl
        simp [ScopeHead.isUnnamed, hname] at hunnamed
      simp [hkind, qualifiedName?_cons_of_none hname, ownerName?]
    | some text =>
      obtain ⟨rfl, rfl, htext⟩ := ScopeHead.bodyName?_eq_some_iff.mp hname
      simp only [Bool.not_false, if_true, qualifiedName?_cons_of_some hname, ownerName?,
        Option.some_or]
      have hnear := qualifiedName?_ne_empty (heads.takeWhile fun head => !head.isUnnamed)
      cases hnames : qualifiedName? (heads.takeWhile fun head => !ScopeHead.isUnnamed head) with
      | some outer =>
        rw [hnames] at hnear
        simp [Frame.qualify, htext, show outer ≠ "" by simpa using hnear]
      | none =>
        -- what is around is a body without a name, or no body at all
        cases hfind : heads.find? ScopeHead.isUnnamed with
        | none => rfl
        | some head =>
          obtain ⟨kind, name⟩ := head
          obtain ⟨-, rfl | rfl⟩ := ScopeHead.isUnnamed_iff.mp (List.find?_some hfind)
          · rfl
          · simp [Frame.qualify]

/-- If every open type body has a name, the owner is the qualified name of them all. -/
theorem ownerName?_of_named {heads : List ScopeHead}
    (h : ∀ head ∈ heads, ScopeHead.isUnnamed head = false) :
    ownerName? heads = qualifiedName? heads := by
  have hall : heads.takeWhile (fun head => !ScopeHead.isUnnamed head) = heads :=
    List.takeWhile_eq_self_iff.mpr fun head hhead => by simp [h head hhead]
  have hnone : heads.find? ScopeHead.isUnnamed = none :=
    List.find?_eq_none.mpr fun head hhead => by simp [h head hhead]
  simp [ownerName?, hall, hnone]

/-! ## What one event does -/

/-- What an event defines: an identifier and a site. -/
def Event.defined? : Event → Option (String × Site)
  | .method identifier site => site.map (identifier, ·)
  | .singletonMethod identifier site => site.map (identifier, ·)
  | _ => none

/-- The site that an event gives to an identifier that it defines. -/
def Event.siteOf? (e : Event) (identifier : String) : Option Site :=
  e.defined?.bind fun d => if identifier = d.1 then some d.2 else none

theorem Event.siteOf?_eq_some_iff {e : Event} {identifier : String} {site : Site} :
    e.siteOf? identifier = some site ↔ e.defined? = some (identifier, site) := by
  rw [siteOf?]
  cases e.defined? with
  | none => simp
  | some d => simp [Prod.ext_iff, eq_comm]

/-- A frame that differs from another one in what definitions and directives write: the table has
    got the sites that an event gives, and no name twice. -/
structure Frame.Written (f : Frame) (e : Event) (g : Frame) : Prop where
  owner : g.owner = f.owner
  head : (g.kind, g.name) = (f.kind, f.name)
  nodup : f.table.names.Nodup → g.table.names.Nodup
  site? : ∀ identifier,
    g.table.site? identifier = (f.table.site? identifier).or (e.siteOf? identifier)

namespace Run

/-- A definition in the innermost frame. -/
theorem written_define (r : Run) {identifier : String} {site : Option Site} {e : Event}
    (h : e.defined? = site.map (identifier, ·)) :
    r.stack.current.Written e (r.define identifier site).stack.current where
  owner := rfl
  head := rfl
  nodup hnodup := Table.nodup_names_assign hnodup _ _ _
  site? id := by
    show (r.stack.current.table.assign identifier _ site).site? id = _
    rw [Table.site?_assign, Event.siteOf?, h]
    by_cases hid : id = identifier <;> cases site <;> simp [hid]

/-- What an event that is taken does to a run: it opens a scope, closes one, writes into the
    innermost frame, or is recorded at once. -/
inductive Effect (r : Run) : Event → Run → Prop
  | opens (kind : ScopeKind) (name : Option String) (site : Option Site) :
      Effect r (.openScope kind name site)
        ⟨⟨r.stack.current.inside kind name, r.stack.frames⟩, r.records⟩
  | closes (site : Option Site) {frame : Frame} {outer : List Frame}
      (outer_eq : r.stack.outer = frame :: outer) :
      Effect r (.closeScope site) ⟨⟨frame, outer⟩, r.records ++ r.stack.current.records⟩
  | writes {e : Event} {frame : Frame} (written : r.stack.current.Written e frame) :
      Effect r e ⟨⟨frame, r.stack.outer⟩, r.records⟩
  | records (identifier : String) (site : Site) :
      Effect r (.singletonMethod identifier (some site))
        ⟨r.stack, r.records ++ [.ofSingleton identifier site r.stack.current.owner]⟩

theorem effect_of_step {r r' : Run} {position : Nat} {e : Event}
    (h : r.step position e = .ok r') : r.Effect e r' := by
  cases e with
  | openScope kind name site =>
    simp only [step, Stack.push] at h
    by_cases hkind : kind = .topLevel
    · simp [hkind] at h
    · simp only [hkind, if_false, Except.ok.injEq] at h
      exact h ▸ .opens kind name site
  | closeScope site =>
    simp only [step, Stack.pop] at h
    cases houter : r.stack.outer with
    | nil => simp [houter] at h
    | cons frame outer =>
      simp only [houter, Except.ok.injEq] at h
      exact h ▸ .closes site houter
  | bare level site =>
    cases h
    exact .writes ⟨rfl, rfl, id, fun _ => Option.or_none.symm⟩
  | targeted level targets site =>
    cases h
    refine .writes ?_
    show r.stack.current.Written _ (r.stack.current.assignAll targets level)
    rw [Frame.assignAll_eq]
    refine ⟨rfl, rfl, fun hnodup => Table.nodup_names_mention hnodup targets level, fun id => ?_⟩
    exact (Table.site?_mention _ targets level id).trans Option.or_none.symm
  | method identifier site =>
    cases h
    exact .writes (r.written_define rfl)
  | singletonMethod identifier site =>
    simp only [step] at h
    split at h
    · cases site with
      | none => cases h
      | some site =>
        cases h
        exact .records identifier site
    · cases h
      exact .writes (r.written_define rfl)

/-! ## Owners of the open frames -/

/-- The owner of each frame is that of the scopes from there outwards, and its table has no name
    twice. -/
def Owned : List Frame → Prop
  | [] => True
  | f :: outer => f.owner = ownerName? ((f :: outer).map fun g => (g.kind, g.name)) ∧
      f.table.names.Nodup ∧ Owned outer

theorem owned_initial : Owned initial.stack.frames :=
  ⟨rfl, List.nodup_nil, True.intro⟩

theorem Owned.step {r r' : Run} {position : Nat} {e : Event} (hr : Owned r.stack.frames)
    (h : r.step position e = .ok r') : Owned r'.stack.frames := by
  cases effect_of_step h with
  | opens kind name site =>
    refine ⟨?_, List.nodup_nil, hr⟩
    show r.stack.current.ownerInside kind name = ownerName? ((kind, name) :: r.stack.heads)
    rw [ownerName?_cons, Frame.ownerInside, hr.1]
    rfl
  | closes site houter =>
    have houterOwned := hr.2.2
    rwa [houter] at houterOwned
  | writes hwritten =>
    refine ⟨?_, hwritten.nodup hr.2.1, hr.2.2⟩
    rw [hwritten.owner, List.map_cons, hwritten.head]
    exact hr.1
  | records identifier site => exact hr

theorem Owned.leads {r r' : Run} {events : List Event} (hr : Owned r.stack.frames)
    (h : r.Leads (events.map .event) r') : Owned r'.stack.frames := by
  induction events generalizing r with
  | nil => rwa [Leads.unique h (Leads.nil r)]
  | cons e rest ih =>
    obtain ⟨s, hs, hrest⟩ := Leads.cons_iff.mp h
    exact ih (hr.step hs) hrest

/-! ## Definitions on the way to records -/

/-- A run has a record of an identifier, or an open frame that will give one. -/
def Declares (r : Run) (identifier : String) (site : Site) (owner : Option String) : Prop :=
  (∃ record ∈ r.records, record.identifier = identifier ∧ record.site = site ∧
    record.owner = owner) ∨
  ∃ f ∈ r.stack.frames, f.table.site? identifier = some site ∧ f.owner = owner

end Run

/-- A frame gives a record of each name that has a site, under the owner of the frame. -/
theorem Frame.exists_mem_records_iff {f : Frame} (h : f.table.names.Nodup) {identifier : String}
    {site : Site} {owner : Option String} :
    (∃ record ∈ f.records, record.identifier = identifier ∧ record.site = site ∧
      record.owner = owner) ↔ f.table.site? identifier = some site ∧ f.owner = owner := by
  rw [Frame.records_eq_filterMap f h]
  constructor
  · rintro ⟨record, hrecord, rfl, rfl, rfl⟩
    obtain ⟨name, -, hname⟩ := List.mem_filterMap.mp hrecord
    obtain ⟨entry, hget, hrow⟩ := Option.bind_eq_some_iff.mp hname
    obtain ⟨site, hsite, rfl⟩ := Option.map_eq_some_iff.mp hrow
    exact ⟨by rw [Table.site?, hget]; exact hsite, rfl⟩
  · rintro ⟨hsite, rfl⟩
    obtain ⟨entry, hget, hentry⟩ := Option.bind_eq_some_iff.mp hsite
    have hdefined : identifier ∈ f.table.definedNames := by
      rw [Table.mem_definedNames_iff h, hsite]
      rfl
    exact ⟨⟨identifier, site, entry.level, f.owner, f.singleton⟩,
      List.mem_filterMap.mpr ⟨identifier, hdefined, by simp [recordOf?, record?, hget, hentry]⟩,
      rfl, rfl, rfl⟩

namespace Run

variable {r r' : Run} {position : Nat} {e : Event} {identifier : String} {site : Site}
  {owner : Option String}

/-- What a run declares after an event it declared before, or the event defines it. -/
theorem Declares.of_step (hr : Owned r.stack.frames) (h : r.step position e = .ok r')
    (hd : r'.Declares identifier site owner) :
    r.Declares identifier site owner ∨
      e.defined? = some (identifier, site) ∧ r.stack.current.owner = owner := by
  cases effect_of_step h with
  | opens kind name openedAt =>
    rcases hd with hd | ⟨f, hf, hsite, howner⟩
    · exact .inl (.inl hd)
    · rcases List.mem_cons.mp hf with rfl | hf
      · cases hsite
      · exact .inl (.inr ⟨f, hf, hsite, howner⟩)
  | closes closedAt houter =>
    rcases hd with ⟨record, hrecord, hrest⟩ | ⟨f, hf, hrest⟩
    · rcases List.mem_append.mp hrecord with hrecord | hrecord
      · exact .inl (.inl ⟨record, hrecord, hrest⟩)
      · exact .inl (.inr ⟨_, List.mem_cons_self,
          (Frame.exists_mem_records_iff hr.2.1).mp ⟨record, hrecord, hrest⟩⟩)
    · refine .inl (.inr ⟨f, List.mem_cons_of_mem _ ?_, hrest⟩)
      rwa [houter]
  | writes hwritten =>
    rcases hd with hd | ⟨f, hf, hsite, howner⟩
    · exact .inl (.inl hd)
    · rcases List.mem_cons.mp hf with rfl | hf
      · rw [hwritten.site?, Option.or_eq_some_iff] at hsite
        rw [hwritten.owner] at howner
        rcases hsite with hsite | ⟨-, hsite⟩
        · exact .inl (.inr ⟨_, List.mem_cons_self, hsite, howner⟩)
        · exact .inr ⟨Event.siteOf?_eq_some_iff.mp hsite, howner⟩
      · exact .inl (.inr ⟨f, List.mem_cons_of_mem _ hf, hsite, howner⟩)
  | records name definedAt =>
    rcases hd with ⟨record, hrecord, hid, hsite, howner⟩ | hd
    · rcases List.mem_append.mp hrecord with hrecord | hrecord
      · exact .inl (.inl ⟨record, hrecord, hid, hsite, howner⟩)
      · obtain rfl := List.mem_singleton.mp hrecord
        subst hid hsite
        exact .inr ⟨rfl, howner⟩
    · exact .inl (.inr hd)

/-- An event takes nothing away from what a run declares. -/
theorem Declares.step (hr : Owned r.stack.frames) (h : r.step position e = .ok r')
    (hd : r.Declares identifier site owner) : r'.Declares identifier site owner := by
  cases effect_of_step h with
  | opens kind name openedAt =>
    exact hd.imp id fun ⟨f, hf, hrest⟩ => ⟨f, List.mem_cons_of_mem _ hf, hrest⟩
  | closes closedAt houter =>
    rcases hd with ⟨record, hrecord, hrest⟩ | ⟨f, hf, hrest⟩
    · exact .inl ⟨record, List.mem_append_left _ hrecord, hrest⟩
    · rcases List.mem_cons.mp hf with rfl | hf
      · obtain ⟨record, hrecord, hsame⟩ := (Frame.exists_mem_records_iff hr.2.1).mpr hrest
        exact .inl ⟨record, List.mem_append_right _ hrecord, hsame⟩
      · rw [houter] at hf
        exact .inr ⟨f, hf, hrest⟩
  | writes hwritten =>
    rcases hd with hd | ⟨f, hf, hsite, howner⟩
    · exact .inl hd
    · rcases List.mem_cons.mp hf with rfl | hf
      · refine .inr ⟨_, List.mem_cons_self, ?_, hwritten.owner.trans howner⟩
        rw [hwritten.site?, hsite, Option.some_or]
      · exact .inr ⟨f, List.mem_cons_of_mem _ hf, hsite, howner⟩
  | records name definedAt =>
    rcases hd with ⟨record, hrecord, hrest⟩ | hd
    · exact .inl ⟨record, List.mem_append_left _ hrecord, hrest⟩
    · exact .inr hd

/-- What an event defines is declared under the owner of the innermost frame, if not at the site
    of the event then at that of a definition before it. -/
theorem declares_of_defined (h : r.step position e = .ok r')
    (hdefined : e.defined? = some (identifier, site)) :
    ∃ first, r'.Declares identifier first r.stack.current.owner := by
  cases effect_of_step h with
  | opens kind name openedAt => cases hdefined
  | closes closedAt houter => cases hdefined
  | writes hwritten =>
    have hsite := hwritten.site? identifier
    rw [Event.siteOf?_eq_some_iff.mpr hdefined, Option.or_some] at hsite
    exact ⟨_, .inr ⟨_, List.mem_cons_self, hsite, hwritten.owner⟩⟩
  | records name definedAt =>
    cases hdefined
    exact ⟨site, .inl ⟨_, List.mem_append_right _ List.mem_cons_self, rfl, rfl, rfl⟩⟩

/-! ## Whole runs -/

variable {events : List Event}

/-- What a run declares after events it declared before, or it is defined among them. -/
theorem Declares.of_leads (hr : Owned r.stack.frames) (h : r.Leads (events.map .event) r')
    (hd : r'.Declares identifier site owner) :
    r.Declares identifier site owner ∨ ∃ before e after mid, events = before ++ e :: after ∧
      e.defined? = some (identifier, site) ∧ r.Leads (before.map .event) mid ∧
      mid.stack.current.owner = owner := by
  induction events generalizing r with
  | nil =>
    rw [Leads.unique h (Leads.nil r)] at hd
    exact .inl hd
  | cons e rest ih =>
    obtain ⟨s, hs, hrest⟩ := Leads.cons_iff.mp h
    rcases ih (hr.step hs) hrest with hd | ⟨before, e', after, mid, rfl, hdefined, hmid, howner⟩
    · rcases hd.of_step hr hs with hd | ⟨hdefined, howner⟩
      · exact .inl hd
      · exact .inr ⟨[], e, rest, r, rfl, hdefined, Leads.nil r, howner⟩
    · exact .inr ⟨e :: before, e', after, mid, rfl, hdefined, Leads.cons hs hmid, howner⟩

/-- Events take nothing away from what a run declares. -/
theorem Declares.leads (hr : Owned r.stack.frames) (h : r.Leads (events.map .event) r')
    (hd : r.Declares identifier site owner) : r'.Declares identifier site owner := by
  induction events generalizing r with
  | nil => rwa [Leads.unique h (Leads.nil r)]
  | cons e rest ih =>
    obtain ⟨s, hs, hrest⟩ := Leads.cons_iff.mp h
    exact ih (hr.step hs) hrest (hd.step hr hs)

/-- The owner of the innermost frame, by the events. -/
theorem owner_of_leads (h : initial.Leads (events.map .event) r) :
    r.stack.current.owner = ownerName? (openScopes events) :=
  (owned_initial.leads h).1.trans (congrArg ownerName? h.heads_eq)

theorem not_declares_initial : ¬ initial.Declares identifier site owner := by
  rintro (⟨record, hrecord, -⟩ | ⟨f, hf, hsite, -⟩)
  · cases hrecord
  · obtain rfl := List.mem_singleton.mp hf
    cases hsite

/-- In the frame of the file, what a run declares are its records with those of this frame. -/
theorem declares_iff_of_outer_nil (hr : Owned r.stack.frames) (houter : r.stack.outer = []) :
    r.Declares identifier site owner ↔ ∃ record ∈ r.records ++ r.stack.current.records,
      record.identifier = identifier ∧ record.site = site ∧ record.owner = owner := by
  have hframes : r.stack.frames = [r.stack.current] := by rw [Stack.frames, houter]
  simp only [Declares, hframes, List.mem_singleton, exists_eq_left, List.mem_append, or_and_right,
    exists_or, ← Frame.exists_mem_records_iff hr.2.1]

/-- A stream that is resolved leads back to the frame of the file. -/
theorem exists_leads_of_resolve {items : List Item} {records : List MethodRecord}
    (h : resolve items = .ok records) :
    ∃ r, initial.Leads items r ∧ r.stack.outer = [] ∧
      records = r.records ++ r.stack.current.records := by
  rw [resolve] at h
  cases happly : initial.applyAll 0 items with
  | error failure => simp [happly] at h
  | ok r =>
    refine ⟨r, Leads.of_applyAll happly, ?_⟩
    cases houter : r.stack.outer with
    | nil => simpa [happly, finish, Stack.finish, houter, eq_comm] using h
    | cons frame outer => simp [happly, finish, Stack.finish, houter] at h

end Run

/-- The records of a properly nested stream stand under the owners of their definitions. The
    owner of a definition is told by the scopes that are open there: it is the qualified name of
    the type bodies inside the innermost one without a name, and the absent or empty name of that
    one if there are none inside it. Every record has a definition with its site, and every
    definition has a record. Where all open type bodies have names, the owner is the qualified
    name of them all. -/
theorem owners_of_records (events : List Event) (hnested : ProperlyNested events) :
    (Sited events → ∃ records, Run.resolve (events.map .event) = .ok records) ∧
    (∀ records, Run.resolve (events.map .event) = .ok records →
      (∀ record ∈ records, ∃ before e after, events = before ++ e :: after ∧
        e.defined? = some (record.identifier, record.site) ∧
        record.owner = ownerName? (openScopes before)) ∧
      ∀ before e after identifier site, events = before ++ e :: after →
        e.defined? = some (identifier, site) →
        ∃ record ∈ records, record.identifier = identifier ∧
          record.owner = ownerName? (openScopes before)) ∧
    ∀ heads : List ScopeHead, (∀ head ∈ heads, ScopeHead.isUnnamed head = false) →
      ownerName? heads = qualifiedName? heads := by
  refine ⟨fun hsited => ?_, fun records hrecords => ?_, fun heads => ownerName?_of_named⟩
  · obtain ⟨last, hlast, houter, -⟩ := Reading.initial.leads_records [] events hnested hsited
    exact ⟨_, Run.resolve_of_leads hlast houter⟩
  · obtain ⟨last, hlast, houter, rfl⟩ := Run.exists_leads_of_resolve hrecords
    have howned := Run.owned_initial.leads hlast
    refine ⟨fun record hmem => ?_, fun before e after identifier site hsplit hdefined => ?_⟩
    · have hdeclares := (Run.declares_iff_of_outer_nil howned houter).mpr
        ⟨record, hmem, rfl, rfl, rfl⟩
      rcases hdeclares.of_leads Run.owned_initial hlast with
        hnone | ⟨before, e, after, mid, hsplit, hdefined, hmid, howner⟩
      · exact absurd hnone Run.not_declares_initial
      · exact ⟨before, e, after, hsplit, hdefined, howner.symm.trans (Run.owner_of_leads hmid)⟩
    · rw [hsplit, List.map_append, Run.Leads.append_iff] at hlast
      obtain ⟨mid, hmid, hrest⟩ := hlast
      obtain ⟨next, hnext, hrest⟩ := Run.Leads.cons_iff.mp hrest
      obtain ⟨first, hdeclares⟩ := Run.declares_of_defined hnext hdefined
      have hkept := hdeclares.leads ((Run.owned_initial.leads hmid).step hnext) hrest
      obtain ⟨record, hmem, hid, -, howner⟩ :=
        (Run.declares_iff_of_outer_nil howned houter).mp hkept
      exact ⟨record, hmem, hid, howner.trans (Run.owner_of_leads hmid)⟩

/-- A class `A` with a method and a class that has no name; in this one stand a method and a
    class `B` with a method in its singleton body. -/
def namelessStream : List Event :=
  let at' (line : Int) : Option Site := some ⟨line, none, 0⟩
  [.openScope .typeBody (some "A") none, .method "a" (at' 1),
    .openScope .typeBody none none, .method "m" (at' 2),
    .openScope .typeBody (some "B") none, .openScope .singletonBody none none,
    .method "b" (at' 3),
    .closeScope none, .closeScope none, .closeScope none, .closeScope none]

/-- The owners of `namelessStream`, by the scopes that are open at its definitions. -/
theorem owners_of_namelessStream :
    ProperlyNested namelessStream ∧ Sited namelessStream ∧
      ∃ records, Run.resolve (namelessStream.map .event) = .ok records ∧
        (∃ record ∈ records, record.identifier = "a" ∧ record.owner = some "A") ∧
        (∃ record ∈ records, record.identifier = "m" ∧ record.owner = none) ∧
        ∃ record ∈ records, record.identifier = "b" ∧ record.owner = some "B" := by
  have hnested : ProperlyNested namelessStream := by decide
  have hsited : Sited namelessStream := by decide
  obtain ⟨hresolves, howners, -⟩ := owners_of_records namelessStream hnested
  obtain ⟨records, hrecords⟩ := hresolves hsited
  have hdefined := (howners records hrecords).2
  refine ⟨hnested, hsited, records, hrecords, ?_, ?_, ?_⟩
  · exact hdefined (namelessStream.take 1) _ (namelessStream.drop 2) "a" ⟨1, none, 0⟩ rfl rfl
  · exact hdefined (namelessStream.take 3) _ (namelessStream.drop 4) "m" ⟨2, none, 0⟩ rfl rfl
  · exact hdefined (namelessStream.take 6) _ (namelessStream.drop 7) "b" ⟨3, none, 0⟩ rfl rfl

/-- A class without a name takes the names around it away: in `namelessStream`, `m` has no owner
    and `b` has the owner `B`, where the open type bodies that have names make `A` and `A::B`. -/
theorem nameless_body_cuts_owner :
    ProperlyNested namelessStream ∧
      Run.resolve (namelessStream.map .event) = .ok
        [⟨"b", ⟨3, none, 0⟩, .pub, some "B", true⟩, ⟨"m", ⟨2, none, 0⟩, .pub, none, false⟩,
          ⟨"a", ⟨1, none, 0⟩, .pub, some "A", false⟩] ∧
      qualifiedName? (openScopes (namelessStream.take 3)) = some "A" ∧
      qualifiedName? (openScopes (namelessStream.take 6)) = some "A::B" := by
  decide

end MethodVisibility
