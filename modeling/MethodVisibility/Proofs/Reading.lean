/-
  What a stream means, said without tables.

  A `Reading` goes through a stream and keeps, for every open scope, the frame as it was
  opened and the events that stood directly in the scope, latest first. Nothing is resolved
  on the way. When a scope closes, its `OpenScope.block` is read off those events: one record
  for each identifier that was defined, in the order of the first definitions, with the site
  of the first definition and the level that the latest write gives. A write is a targeted
  directive that names the identifier, or a definition of it, which takes the level of the
  last bare directive before it.

  `resolve_eq_ok_declaredRecords`: on a nested stream whose definitions have sites, a run
  returns exactly these records. A run and a reading go in step (`Reading.leads_read`): the
  frame that a run holds is a function of what the reading has heard (`OpenScope.frame`), and
  its table yields the block (`OpenScope.records_frame`).
-/
import MethodVisibility.Proofs.Nesting
import MethodVisibility.Proofs.Tables

namespace MethodVisibility

/-! ## Levels and definitions of a scope -/

/-- The level that a definition takes after events, the latest of which comes first. -/
def windowLevel : List Event → Level
  | [] => .pub
  | .bare level _ :: _ => level
  | _ :: before => windowLevel before

/-- What an event defines in a scope of this kind. A method with a receiver of its own is
    only defined in a singleton body. -/
def ScopeKind.definition? (kind : ScopeKind) : Event → Option (String × Site)
  | .method identifier (some site) => some (identifier, site)
  | .singletonMethod identifier (some site) =>
    if kind = .singletonBody then some (identifier, site) else none
  | _ => none

/-- The level that the latest write gives to an identifier in a scope of this kind. -/
def ScopeKind.levelOf (kind : ScopeKind) (identifier : String) : List Event → Level
  | [] => .pub
  | .targeted level targets _ :: before =>
    if identifier ∈ targets then level else kind.levelOf identifier before
  | e :: before =>
    if (kind.definition? e).map (·.1) = some identifier then windowLevel before
    else kind.levelOf identifier before

/-- A scope that is open: its frame as it was opened, and what has happened directly in it,
    latest first. -/
structure OpenScope where
  opened : Frame
  events : List Event

namespace OpenScope

/-- The definitions of a scope, oldest first. -/
def definitions (s : OpenScope) : List (String × Site) :=
  s.events.reverse.filterMap s.opened.kind.definition?

/-- The record of an identifier that is defined in a scope. -/
def record? (s : OpenScope) (identifier : String) : Option MethodRecord :=
  (s.definitions.lookup identifier).map fun site =>
    { identifier, site, level := s.opened.kind.levelOf identifier s.events
      owner := s.opened.owner, singleton := s.opened.singleton }

/-- The records of a scope when it closes. -/
def block (s : OpenScope) : List MethodRecord :=
  (s.definitions.map (·.1)).eraseDups.filterMap s.record?

end OpenScope

/-! ## Reading a stream -/

/-- The innermost open scope and the scopes around it, innermost first. -/
structure Reading where
  current : OpenScope
  outer : List OpenScope

namespace Reading

/-- Before the first event. -/
def initial : Reading := ⟨⟨.topLevel, []⟩, []⟩

/-- The open scopes after an event. -/
def read (r : Reading) : Event → Reading
  | .openScope kind name _ => ⟨⟨r.current.opened.inside kind name, []⟩, r.current :: r.outer⟩
  | .closeScope _ =>
    match r.outer with
    | [] => r
    | s :: rest => ⟨s, rest⟩
  | e => { r with current := { r.current with events := e :: r.current.events } }

/-- The records that an event appends. -/
def appended (r : Reading) : Event → List MethodRecord
  | .closeScope _ => r.current.block
  | .singletonMethod identifier (some site) =>
    if r.current.opened.kind = .singletonBody then []
    else [.ofSingleton identifier site r.current.opened.owner]
  | _ => []

/-- The records of the rest of a stream, the block of the file last. -/
def records (r : Reading) : List Event → List MethodRecord
  | [] => r.current.block
  | e :: rest => r.appended e ++ (r.read e).records rest

end Reading

/-- The records that a stream declares. -/
def declaredRecords (events : List Event) : List MethodRecord :=
  Reading.initial.records events

/-! ## The table of a scope -/

namespace ScopeKind

/-- The table that events, the latest first, leave in a scope of this kind. -/
def tableOf (kind : ScopeKind) : List Event → Table
  | [] => .empty
  | .targeted level targets _ :: before => (kind.tableOf before).mention targets level
  | e :: before =>
    match kind.definition? e with
    | some (identifier, site) =>
      (kind.tableOf before).assign identifier (windowLevel before) (some site)
    | none => kind.tableOf before

/-- Induction over the events of a scope, by what the latest of them does: it defines an
    identifier, names some in a directive, or leaves the table alone. -/
theorem event_induction (kind : ScopeKind) {motive : List Event → Prop} (nil : motive [])
    (defines : ∀ e before identifier site, kind.definition? e = some (identifier, site) →
      kind.tableOf (e :: before) =
        (kind.tableOf before).assign identifier (windowLevel before) (some site) →
      (∀ id, kind.levelOf id (e :: before) =
        if id = identifier then windowLevel before else kind.levelOf id before) →
      motive before → motive (e :: before))
    (mentions : ∀ level targets site before, motive before →
      motive (.targeted level targets site :: before))
    (idles : ∀ e before, kind.definition? e = none →
      kind.tableOf (e :: before) = kind.tableOf before →
      (∀ id, kind.levelOf id (e :: before) = kind.levelOf id before) →
      motive before → motive (e :: before))
    (events : List Event) : motive events := by
  induction events with
  | nil => exact nil
  | cons e before ih =>
    by_cases ht : ∃ level targets site, e = .targeted level targets site
    · obtain ⟨level, targets, site, rfl⟩ := ht
      exact mentions level targets site before ih
    · have htable : kind.tableOf (e :: before) =
          match kind.definition? e with
          | some (identifier, site) =>
            (kind.tableOf before).assign identifier (windowLevel before) (some site)
          | none => kind.tableOf before := by
        cases e with
        | targeted level targets site => exact absurd ⟨level, targets, site, rfl⟩ ht
        | _ => rfl
      have hlevel : ∀ id, kind.levelOf id (e :: before) =
          if (kind.definition? e).map (·.1) = some id then windowLevel before
          else kind.levelOf id before := by
        intro id
        cases e with
        | targeted level targets site => exact absurd ⟨level, targets, site, rfl⟩ ht
        | _ => rfl
      cases hdef : kind.definition? e with
      | none =>
        rw [hdef] at htable
        refine idles e before hdef htable ?_ ih
        intro id
        simp [hlevel id, hdef]
      | some d =>
        obtain ⟨identifier, site⟩ := d
        rw [hdef] at htable
        refine defines e before identifier site hdef htable ?_ ih
        intro id
        simp [hlevel id, hdef, eq_comm]

theorem nodup_names_tableOf (kind : ScopeKind) (events : List Event) :
    (kind.tableOf events).names.Nodup := by
  induction events using kind.event_induction with
  | nil => simp [tableOf]
  | defines e before identifier site _ htable _ ih =>
    rw [htable]
    exact Table.nodup_names_assign ih _ _ _
  | mentions level targets site before ih => exact Table.nodup_names_mention ih targets level
  | idles e before _ htable _ ih => rwa [htable]

end ScopeKind

namespace OpenScope

/-- The frame that a run holds for a scope. -/
def frame (s : OpenScope) : Frame :=
  { s.opened with
    level := windowLevel s.events
    table := s.opened.kind.tableOf s.events }

/-- The definitions of a scope after one more event. -/
theorem definitions_cons (opened : Frame) (e : Event) (before : List Event) :
    definitions ⟨opened, e :: before⟩ =
      definitions ⟨opened, before⟩ ++ (opened.kind.definition? e).toList := by
  simp only [definitions, List.reverse_cons, List.filterMap_append, List.filterMap_cons,
    List.filterMap_nil]
  cases opened.kind.definition? e <;> rfl

/-- The site of a name in the table of a scope is that of its first definition. -/
theorem site?_tableOf (opened : Frame) (events : List Event) (id : String) :
    (opened.kind.tableOf events).site? id = (definitions ⟨opened, events⟩).lookup id := by
  induction events using opened.kind.event_induction with
  | nil => rfl
  | defines e before identifier site hdef htable _ ih =>
    rw [htable, Table.site?_assign, ih, definitions_cons, hdef, List.lookup_append]
    by_cases hid : id = identifier
    · subst hid
      simp
    · simp [hid, List.lookup_cons, beq_eq_false_iff_ne.mpr hid]
  | mentions level targets site before ih =>
    rw [definitions_cons, ScopeKind.tableOf, Table.site?_mention, ih]
    simp [ScopeKind.definition?]
  | idles e before hdef htable _ ih =>
    rw [htable, ih, definitions_cons, hdef]
    simp

/-- The level of a name in the table of a scope is that of its latest write. -/
theorem level_of_get?_tableOf (kind : ScopeKind) (events : List Event) (id : String)
    (entry : Entry) (h : (kind.tableOf events).get? id = some entry) :
    entry.level = kind.levelOf id events := by
  induction events using kind.event_induction with
  | nil => simp [ScopeKind.tableOf] at h
  | defines e before identifier site _ htable hlevel ih =>
    rw [htable, Table.get?_assign] at h
    rw [hlevel]
    by_cases hid : id = identifier
    · simp only [hid, if_true, Option.some.injEq] at h ⊢
      rw [← h]
    · simp only [hid, if_false] at h ⊢
      exact ih h
  | mentions level targets site before ih =>
    rw [ScopeKind.tableOf, Table.get?_mention] at h
    rw [ScopeKind.levelOf]
    by_cases hid : id ∈ targets
    · simp only [hid, if_true, Option.some.injEq] at h ⊢
      rw [← h]
    · simp only [hid, if_false] at h ⊢
      exact ih h
  | idles e before _ htable hlevel ih =>
    rw [htable] at h
    rw [hlevel]
    exact ih h

theorem eraseDups_append_singleton (xs : List String) (x : String) :
    (xs ++ [x]).eraseDups = xs.eraseDups ++ (if x ∈ xs then [] else [x]) := by
  rw [List.eraseDups_append, List.removeAll, List.filter_cons]
  by_cases h : x ∈ xs <;> simp [h, List.eraseDups_cons]

/-- The defined names of the table of a scope are the identifiers of its definitions, in
    the order in which they first occur. -/
theorem definedNames_tableOf (opened : Frame) (events : List Event) :
    (opened.kind.tableOf events).definedNames =
      ((definitions ⟨opened, events⟩).map (·.1)).eraseDups := by
  induction events using opened.kind.event_induction with
  | nil => rfl
  | defines e before identifier site hdef htable _ ih =>
    have hnodup := ScopeKind.nodup_names_tableOf opened.kind before
    -- a name is new to the table exactly if it was not defined before
    have hnew : (opened.kind.tableOf before).site? identifier = none ↔
        identifier ∉ (definitions ⟨opened, before⟩).map (·.1) := by
      rw [← Option.not_isSome_iff_eq_none, ← Table.mem_definedNames_iff hnodup, ih,
        List.mem_eraseDups]
    rw [htable, Table.definedNames_assign hnodup, definitions_cons, hdef, Option.toList_some,
      List.map_append, List.map_singleton, eraseDups_append_singleton, ih]
    by_cases hmem : identifier ∈ (definitions ⟨opened, before⟩).map (·.1)
    · have hsite : ¬ (opened.kind.tableOf before).site? identifier = none :=
        fun h => hnew.mp h hmem
      simp [hmem, hsite]
    · simp [hmem, hnew.mpr hmem]
  | mentions level targets site before ih =>
    rw [definitions_cons, ScopeKind.tableOf,
      Table.definedNames_mention (ScopeKind.nodup_names_tableOf _ _), ih]
    simp [ScopeKind.definition?]
  | idles e before hdef htable _ ih =>
    rw [htable, ih, definitions_cons, hdef]
    simp

/-- The frame that a run holds for a scope yields the block of the scope. -/
theorem records_frame (s : OpenScope) : s.frame.records = s.block := by
  rw [Frame.records_eq_filterMap _ (ScopeKind.nodup_names_tableOf _ _), block]
  have hrecord : s.frame.recordOf? = s.record? := by
    funext id
    have hsite := site?_tableOf s.opened s.events id
    have hlevel := level_of_get?_tableOf s.opened.kind s.events id
    rw [Table.site?] at hsite
    rw [Frame.recordOf?, record?, ← hsite]
    simp only [frame]
    cases hget : (s.opened.kind.tableOf s.events).get? id with
    | none => rfl
    | some entry => simp [Frame.record?, hlevel entry hget]
  rw [hrecord]
  exact congrArg (List.filterMap s.record?) (definedNames_tableOf s.opened s.events)

end OpenScope

/-! ## A run and a reading go in step -/

namespace Reading

/-- The frames that a run holds for the open scopes. -/
def stack (r : Reading) : Stack :=
  ⟨r.current.frame, r.outer.map OpenScope.frame⟩

theorem inside_frame (s : OpenScope) (kind : ScopeKind) (name : Option String) :
    s.frame.inside kind name = OpenScope.frame ⟨s.opened.inside kind name, []⟩ := rfl

/-- One event takes a run from the frames of a reading to those of the reading after it,
    and appends the records that the reading appends. -/
theorem leads_read (r : Reading) (records : List MethodRecord) (e : Event) {rest : List Event}
    (hnested : depthAfter r.outer.length (e :: rest) = some 0) (hsited : e.isSited = true) :
    (⟨r.stack, records⟩ : Run).Leads [.event e] ⟨(r.read e).stack, records ++ r.appended e⟩ ∧
      depthAfter (r.read e).outer.length rest = some 0 := by
  cases e with
  | openScope kind name site =>
    by_cases hkind : kind = .topLevel
    · simp [depthAfter, hkind] at hnested
    · simp only [depthAfter, hkind, if_false] at hnested
      refine ⟨Run.Leads.single ?_, hnested⟩
      simp [Run.apply, Run.step, Stack.push, hkind, stack, read, appended, inside_frame]
  | closeScope site =>
    cases houter : r.outer with
    | nil => simp [depthAfter, houter] at hnested
    | cons s outer =>
      simp only [depthAfter, houter, List.length_cons] at hnested
      refine ⟨Run.Leads.single ?_, ?_⟩
      · simp [Run.apply, Run.step, Stack.pop, stack, read, appended, houter,
          OpenScope.records_frame]
      · simpa [read, houter] using hnested
  | bare level site =>
    refine ⟨Run.Leads.single ?_, hnested⟩
    simp [Run.apply, Run.step, Stack.setDefault, Stack.modify, stack, read, appended,
      OpenScope.frame, windowLevel, ScopeKind.tableOf, ScopeKind.definition?]
  | targeted level targets site =>
    refine ⟨Run.Leads.single ?_, hnested⟩
    simp [Run.apply, Run.step, Stack.assignAll, Stack.modify, Frame.assignAll_eq, stack, read,
      appended, OpenScope.frame, windowLevel, ScopeKind.tableOf]
  | method identifier site =>
    refine ⟨Run.Leads.single ?_, hnested⟩
    obtain ⟨at', rfl⟩ := Option.isSome_iff_exists.mp hsited
    simp [Run.apply, Run.step, Run.define, Stack.assign, Stack.modify, Frame.assign, stack, read,
      appended, OpenScope.frame, windowLevel, ScopeKind.tableOf, ScopeKind.definition?]
  | singletonMethod identifier site =>
    refine ⟨Run.Leads.single ?_, hnested⟩
    obtain ⟨at', rfl⟩ := Option.isSome_iff_exists.mp hsited
    by_cases hkind : r.current.opened.kind = .singletonBody
    · simp [Run.apply, Run.step, Run.exempt, Run.define, Stack.assign, Stack.modify,
        Frame.assign, stack, read, appended, OpenScope.frame, windowLevel, ScopeKind.tableOf,
        ScopeKind.definition?, hkind]
    · simp [Run.apply, Run.step, Run.exempt, Emission.records, stack, read, appended,
        OpenScope.frame, windowLevel, ScopeKind.tableOf, ScopeKind.definition?, hkind]

/-- A whole stream takes a run to the frame of the file, and the records of the run with
    those of that frame are the ones that the reading gives. -/
theorem leads_records (r : Reading) (before : List MethodRecord) (events : List Event)
    (hnested : depthAfter r.outer.length events = some 0) (hsited : Sited events) :
    ∃ last : Run, (⟨r.stack, before⟩ : Run).Leads (events.map .event) last ∧
      last.stack.outer = [] ∧
      last.records ++ last.stack.current.records = before ++ r.records events := by
  induction events generalizing r before with
  | nil =>
    have houter : r.outer = [] := by simpa [depthAfter] using hnested
    refine ⟨⟨r.stack, before⟩, Run.Leads.nil _, by simp [stack, houter], ?_⟩
    simp [stack, records, OpenScope.records_frame]
  | cons e rest ih =>
    obtain ⟨hhead, htail⟩ := sited_cons.mp hsited
    obtain ⟨hstep, hdepth⟩ := r.leads_read before e hnested hhead
    obtain ⟨last, hlast, houter, hrecords⟩ := ih (r.read e) (before ++ r.appended e) hdepth htail
    refine ⟨last, hstep.append hlast, houter, ?_⟩
    rw [hrecords, records, List.append_assoc]

end Reading

/-- A run over a nested stream whose definitions have sites returns the records that the
    stream declares: those of methods with a receiver of their own where they stand, and the
    block of each scope where it closes. -/
theorem resolve_eq_ok_declaredRecords (events : List Event) (hnested : ProperlyNested events)
    (hsited : Sited events) :
    Run.resolve (events.map .event) = .ok (declaredRecords events) := by
  obtain ⟨last, hlast, houter, hrecords⟩ :=
    Reading.initial.leads_records [] events hnested hsited
  have hstart : (⟨Reading.initial.stack, []⟩ : Run) = Run.initial := rfl
  rw [hstart] at hlast
  rw [Run.resolve_of_leads hlast houter, hrecords]
  rfl

/-- A class in which a directive names a method before and after its definition, a method
    is defined twice, a singleton body stands between two definitions and a method has a
    receiver of its own. -/
def mixedStream : List Event :=
  let at' (line : Int) : Option Site := some ⟨line, none, 0⟩
  [.openScope .typeBody (some "A") none,
    .targeted .prot ["late", "never"] none,
    .method "a" (at' 1), .bare .priv none, .method "b" (at' 2),
    .openScope .singletonBody none none,
    .singletonMethod "s" (at' 3), .targeted .prot ["s"] none,
    .closeScope none,
    .singletonMethod "t" (at' 4), .method "late" (at' 5), .method "a" (at' 6),
    .targeted .pub ["b"] none,
    .closeScope none,
    .method "top" (at' 7)]

/-- The records of `mixedStream`, by the declared meaning of a stream. -/
theorem resolve_mixedStream :
    ProperlyNested mixedStream ∧ Sited mixedStream ∧
      Run.resolve (mixedStream.map .event) = .ok
        [⟨"s", ⟨3, none, 0⟩, .prot, some "A", true⟩,
          ⟨"t", ⟨4, none, 0⟩, .pub, some "A", true⟩,
          ⟨"a", ⟨1, none, 0⟩, .priv, some "A", false⟩,
          ⟨"b", ⟨2, none, 0⟩, .pub, some "A", false⟩,
          ⟨"late", ⟨5, none, 0⟩, .priv, some "A", false⟩,
          ⟨"top", ⟨7, none, 0⟩, .pub, none, false⟩] := by
  have hnested : ProperlyNested mixedStream := by decide
  have hsited : Sited mixedStream := by decide
  refine ⟨hnested, hsited, (resolve_eq_ok_declaredRecords mixedStream hnested hsited).trans ?_⟩
  exact congrArg Except.ok (by decide)

end MethodVisibility
