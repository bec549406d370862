/-
  Names that a directive mentions before they are defined.

  Such a name waits in the table without a site until it is defined or the scope closes, so that
  two streams that mention different ones lead to different tables. `Table.SameDefined` is
  sameness up to names that wait: the defined names are the same, in the same order and with the
  same entries. Two runs whose frames are the same in this sense take an item in the same way
  (`Run.SameDefined.apply`), and so they do if the items are directives that target the same of
  the names defined in the innermost scope (`Item.SameOn`).

  `definedHere` gives these names by the events of the stream, and `SameButForward` relates
  streams that differ in no other names. `forward_names_inert`: the resolutions are the same.
-/
import Mathlib.Data.List.Basic
import Mathlib.Data.List.Forall2
import MethodVisibility.Proofs.FirstFault
import MethodVisibility.Proofs.Reading

namespace MethodVisibility

/-! ## Tables -/

namespace Table

/-- The tables have the same rows for defined names, in the same order. -/
structure SameDefined (t u : Table) : Prop where
  left : t.names.Nodup
  right : u.names.Nodup
  names : t.definedNames = u.definedNames
  entries : ∀ id ∈ t.definedNames, t.get? id = u.get? id

namespace SameDefined

variable {t u : Table}

theorem refl (h : t.names.Nodup) : t.SameDefined t :=
  ⟨h, h, rfl, fun _ _ => rfl⟩

theorem site? (h : t.SameDefined u) (id : String) : t.site? id = u.site? id := by
  by_cases hid : id ∈ t.definedNames
  · rw [Table.site?, Table.site?, h.entries id hid]
  · have hleft : t.site? id = none := by
      rwa [mem_definedNames_iff h.left, Option.not_isSome_iff_eq_none] at hid
    have hright : u.site? id = none := by
      rwa [h.names, mem_definedNames_iff h.right, Option.not_isSome_iff_eq_none] at hid
    rw [hleft, hright]

/-- A write makes the name the same in both, and leaves the others as they are. -/
theorem assign (h : t.SameDefined u) (name : String) (level : Level) (site : Option Site) :
    (t.assign name level site).SameDefined (u.assign name level site) := by
  refine ⟨nodup_names_assign h.left _ _ _, nodup_names_assign h.right _ _ _, ?_, ?_⟩
  · rw [definedNames_assign h.left, definedNames_assign h.right, h.names, h.site?]
  · intro id hid
    rw [get?_assign, get?_assign, h.site?]
    by_cases hname : id = name
    · rw [if_pos hname, if_pos hname]
    · rw [if_neg hname, if_neg hname]
      refine h.entries id ?_
      rw [mem_definedNames_iff (nodup_names_assign h.left _ _ _), site?_assign,
        if_neg hname] at hid
      exact (mem_definedNames_iff h.left id).mpr hid

/-- Mentions of the same defined names make no difference, whatever else is mentioned. -/
theorem mention (h : t.SameDefined u) {xs ys : List String}
    (hnames : ∀ name ∈ t.definedNames, name ∈ xs ↔ name ∈ ys) (level : Level) :
    (t.mention xs level).SameDefined (u.mention ys level) := by
  refine ⟨nodup_names_mention h.left _ _, nodup_names_mention h.right _ _, ?_, ?_⟩
  · rw [definedNames_mention h.left, definedNames_mention h.right, h.names]
  · intro id hid
    rw [definedNames_mention h.left] at hid
    rw [get?_mention, get?_mention, h.site?, h.entries id hid]
    simp only [hnames id hid]

end SameDefined

end Table

/-! ## Frames -/

/-- Frames that differ in names that wait at most. -/
inductive Frame.SameDefined : Frame → Frame → Prop
  | mk (f : Frame) {t u : Table} (table : t.SameDefined u) :
      SameDefined { f with table := t } { f with table := u }

namespace Frame.SameDefined

variable {f g : Frame}

theorem refl (h : f.table.names.Nodup) : f.SameDefined f :=
  mk f (.refl h)

/-- A name that waits gives no record. -/
theorem records (h : f.SameDefined g) : f.records = g.records := by
  obtain ⟨f, htable⟩ := h
  rw [records_eq_filterMap _ htable.left, records_eq_filterMap _ htable.right]
  simp only [← htable.names]
  apply List.filterMap_congr
  intro id hid
  rw [recordOf?, recordOf?]
  simp only [htable.entries id hid]
  rfl

theorem kind (h : f.SameDefined g) : f.kind = g.kind := by
  obtain ⟨f, -⟩ := h
  rfl

theorem name (h : f.SameDefined g) : f.name = g.name := by
  obtain ⟨f, -⟩ := h
  rfl

theorem owner (h : f.SameDefined g) : f.owner = g.owner := by
  obtain ⟨f, -⟩ := h
  rfl

/-- Nothing of a table reaches the scopes inside. -/
theorem inside (h : f.SameDefined g) (kind : ScopeKind) (name : Option String) :
    (f.inside kind name).SameDefined (g.inside kind name) := by
  obtain ⟨f, -⟩ := h
  exact refl List.nodup_nil

theorem setLevel (h : f.SameDefined g) (level : Level) :
    Frame.SameDefined { f with level := level } { g with level := level } := by
  obtain ⟨f, htable⟩ := h
  exact mk { f with level := level } htable

theorem assign (h : f.SameDefined g) (name : String) (site : Option Site) :
    (f.assign name f.level site).SameDefined (g.assign name g.level site) := by
  obtain ⟨f, htable⟩ := h
  exact mk f (htable.assign name f.level site)

theorem assignAll (h : f.SameDefined g) {xs ys : List String}
    (hnames : ∀ name ∈ f.table.definedNames, name ∈ xs ↔ name ∈ ys) (level : Level) :
    (f.assignAll xs level).SameDefined (g.assignAll ys level) := by
  obtain ⟨f, htable⟩ := h
  rw [assignAll_eq, assignAll_eq]
  exact mk f (htable.mention hnames level)

end Frame.SameDefined

/-! ## Runs -/

namespace Item

/-- The same item, or directives that target the same of some names. -/
inductive SameOn (defined : List String) : Item → Item → Prop
  | same (item : Item) : SameOn defined item item
  | targeted {xs ys : List String} (level : Level) (site : Option Site)
      (names : ∀ name ∈ defined, name ∈ xs ↔ name ∈ ys) :
      SameOn defined (.event (.targeted level xs site)) (.event (.targeted level ys site))

end Item

namespace Run

/-- Runs with the same records whose frames differ in names that wait at most. -/
structure SameDefined (r s : Run) : Prop where
  records : r.records = s.records
  current : r.stack.current.SameDefined s.stack.current
  outer : List.Forall₂ Frame.SameDefined r.stack.outer s.stack.outer

/-- Both fail in the same way, or neither does. -/
inductive SameOutcome : Except Failure Run → Except Failure Run → Prop
  | ok {r s : Run} (same : r.SameDefined s) : SameOutcome (.ok r) (.ok s)
  | error (failure : Failure) : SameOutcome (.error failure) (.error failure)

namespace SameDefined

variable {r s : Run}

theorem initial : Run.initial.SameDefined Run.initial :=
  ⟨rfl, .refl (by simp [Run.initial, Stack.initial, Frame.topLevel]), .nil⟩

theorem define (h : r.SameDefined s) (name : String) (site : Option Site) :
    (r.define name site).SameDefined (s.define name site) :=
  ⟨h.records, h.current.assign name site, h.outer⟩

theorem openScope (h : r.SameDefined s) (kind : ScopeKind) (name : Option String)
    (site : Option Site) (position : Nat) :
    SameOutcome (r.step position (.openScope kind name site))
      (s.step position (.openScope kind name site)) := by
  by_cases hkind : kind = .topLevel
  · simp only [step, Stack.push, if_pos hkind]
    exact .error _
  · simp only [step, Stack.push, if_neg hkind]
    exact .ok ⟨h.records, h.current.inside kind name, .cons h.current h.outer⟩

/-- A scope closes with the same records. -/
theorem closeScope (h : r.SameDefined s) (site : Option Site) (position : Nat) :
    SameOutcome (r.step position (.closeScope site)) (s.step position (.closeScope site)) := by
  have houter := h.outer
  simp only [step, Stack.pop]
  generalize r.stack.outer = outer at houter
  generalize s.stack.outer = outer' at houter
  cases houter with
  | nil => exact .error _
  | cons hframe hrest =>
    refine .ok ⟨?_, hframe, hrest⟩
    simp only [h.records, h.current.records]

theorem singletonMethod (h : r.SameDefined s) (identifier : String) (site : Option Site)
    (position : Nat) :
    SameOutcome (r.step position (.singletonMethod identifier site))
      (s.step position (.singletonMethod identifier site)) := by
  have hexempt : s.exempt = r.exempt := by rw [exempt, exempt, h.current.kind]
  simp only [step, hexempt, h.current.owner]
  split
  · split
    · refine .ok ⟨?_, h.current, h.outer⟩
      rw [h.records]
    · exact .error _
  · exact .ok (h.define identifier site)

/-- Items that are the same on the names that the innermost frame defines are taken alike. -/
theorem apply (h : r.SameDefined s) {defined : List String}
    (hdefined : ∀ name ∈ r.stack.current.table.definedNames, name ∈ defined) {x y : Item}
    (hxy : Item.SameOn defined x y) (position : Nat) :
    SameOutcome (r.apply position x) (s.apply position y) := by
  cases hxy with
  | targeted level site names =>
    refine .ok ⟨h.records, h.current.assignAll ?_ level, h.outer⟩
    exact fun name hname => names name (hdefined name hname)
  | same =>
    cases x with
    | alien => exact .error _
    | event e =>
      cases e with
      | openScope kind name site => exact h.openScope kind name site position
      | closeScope site => exact h.closeScope site position
      | bare level site => exact .ok ⟨h.records, h.current.setLevel level, h.outer⟩
      | targeted level targets site =>
        exact .ok ⟨h.records, h.current.assignAll (fun _ _ => Iff.rfl) level, h.outer⟩
      | method identifier site => exact .ok (h.define identifier site)
      | singletonMethod identifier site => exact h.singletonMethod identifier site position

/-- At the end of a stream both give the same records, or have the same scopes open. -/
theorem finish (h : r.SameDefined s) : r.finish = s.finish := by
  have houter := h.outer
  simp only [Run.finish, Stack.finish]
  generalize r.stack.outer = outer at houter
  generalize s.stack.outer = outer' at houter
  have hlength := houter.length_eq
  cases houter with
  | nil => simp only [h.records, h.current.records]
  | cons hframe hrest => simp only [hlength, h.current.kind, h.current.name]

end SameDefined

end Run

/-! ## Streams -/

/-- The open scopes after an item. A value that is no event says nothing. -/
def Reading.readItem (r : Reading) : Item → Reading
  | .event e => r.read e
  | .alien => r

/-- What is read of items. -/
def heard (items : List Item) : Reading :=
  items.foldl Reading.readItem .initial

/-- The names that the innermost scope that items leave open defines. -/
def definedHere (items : List Item) : List String :=
  (heard items).current.definitions.map (·.1)

theorem heard_append (items : List Item) (item : Item) :
    heard (items ++ [item]) = (heard items).readItem item := by
  rw [heard, List.foldl_append]
  rfl

/-- The streams are the same behind `before`, save for names that directives target before the
    scope in which they stand defines them. -/
inductive SameButForward : List Item → List Item → List Item → Prop
  | nil (before : List Item) : SameButForward before [] []
  | cons {before xs ys : List Item} {x y : Item} (here : Item.SameOn (definedHere before) x y)
      (rest : SameButForward (before ++ [x]) xs ys) : SameButForward before (x :: xs) (y :: ys)

namespace SameButForward

theorem refl (before items : List Item) : SameButForward before items items := by
  induction items generalizing before with
  | nil => exact nil before
  | cons item rest ih => exact cons (.same item) (ih _)

/-- One item is another one. -/
theorem replace (before : List Item) {x y : Item} {items : List Item}
    (h : Item.SameOn (definedHere (before ++ items)) x y) (rest : List Item) :
    SameButForward before (items ++ x :: rest) (items ++ y :: rest) := by
  induction items generalizing before with
  | nil =>
    rw [List.append_nil] at h
    exact cons h (refl _ rest)
  | cons item items ih =>
    refine cons (.same item) (ih _ ?_)
    rwa [List.append_assoc]

theorem length_eq {before xs ys : List Item} (h : SameButForward before xs ys) :
    xs.length = ys.length := by
  induction h with
  | nil => rfl
  | cons _ _ ih => rw [List.length_cons, List.length_cons, ih]

end SameButForward

/-! ## Runs over such streams -/

theorem depthAfter_closes (n : Nat) :
    depthAfter n (List.replicate n (.closeScope none)) = some 0 := by
  induction n with
  | zero => rfl
  | succ n ih => exact ih

/-- A run holds the frames of the reading, also where scopes are left open. -/
theorem Reading.stack_read (r : Reading) {records : List MethodRecord} {position : Nat} {e : Event}
    {s : Run} (h : (⟨r.stack, records⟩ : Run).step position e = .ok s)
    (hsited : e.isSited = true) : s.stack = (r.read e).stack := by
  -- closing what the event leaves open makes a nested stream of it
  have hnested := Run.depthAfter_cons_of_step h
    (List.replicate s.stack.outer.length (.closeScope none))
  rw [depthAfter_closes] at hnested
  have hleads := (r.leads_read records e (by simpa [Reading.stack] using hnested) hsited).1
  have htaken : (⟨r.stack, records⟩ : Run).Leads [.event e] s :=
    Run.Leads.single (@Run.apply_position _ _ position (.event e) h 0)
  exact congrArg Run.stack (Run.Leads.unique htaken hleads)

/-- The names that the innermost frame defines are those that the stream defines there. -/
theorem Reading.mem_definedNames (r : Reading) (name : String) :
    name ∈ r.stack.current.table.definedNames ↔ name ∈ r.current.definitions.map (·.1) := by
  have hnames : r.stack.current.table.definedNames =
      (r.current.definitions.map (·.1)).eraseDups :=
    OpenScope.definedNames_tableOf r.current.opened r.current.events
  rw [hnames, List.mem_eraseDups]

namespace Run

/-- Streams that differ in forward names lead on from runs that are the same to such runs, or
    fail alike. -/
theorem SameDefined.applyAll {before items others : List Item} {r s : Run}
    (hitems : SameButForward before items others) (h : r.SameDefined s)
    (hstack : r.stack = (heard before).stack) (hsited : ∀ item ∈ items, item.isSited = true)
    (position : Nat) :
    SameOutcome (r.applyAll position items) (s.applyAll position others) := by
  induction hitems generalizing r s position with
  | nil before => exact .ok h
  | @cons before xs ys x y here rest ih =>
    have hdefined : ∀ name ∈ r.stack.current.table.definedNames, name ∈ definedHere before := by
      intro name hname
      rw [hstack] at hname
      exact ((heard before).mem_definedNames name).mp hname
    have hstep := h.apply hdefined here position
    rw [Run.applyAll, Run.applyAll]
    generalize hr : r.apply position x = next at hstep
    generalize s.apply position y = other at hstep
    cases hstep with
    | error failure => exact .error failure
    | @ok r' s' hsame =>
      refine ih hsame ?_ (fun item hitem => hsited item (List.mem_cons_of_mem _ hitem)) _
      rw [heard_append]
      cases x with
      | alien => cases hr
      | event e =>
        obtain ⟨stack, records⟩ := r
        simp only at hstack
        subst hstack
        exact (heard before).stack_read hr (hsited (.event e) List.mem_cons_self)

/-- Streams that differ in forward names have the same resolution. -/
theorem resolve_of_sameButForward {items others : List Item}
    (hitems : SameButForward [] items others) (hsited : ∀ item ∈ items, item.isSited = true) :
    resolve items = resolve others := by
  have hall := SameDefined.applyAll hitems SameDefined.initial rfl hsited 0
  rw [resolve, resolve, hitems.length_eq]
  generalize initial.applyAll 0 items = last at hall
  generalize initial.applyAll 0 others = other at hall
  cases hall with
  | error failure => rfl
  | ok hsame => simp only [hsame.finish]

end Run

/-- Two streams, the first one sited, that differ in no more than names that a directive targets
    before the scope in which it stands defines them: a resolution of one gives the records that
    one of the other gives, or fails as that does. In particular, such a name may be taken out of a
    directive, and of the names that a directive targets no others matter than those that the scope
    defines by then, so that it does not matter in which order the others stand or how often. -/
theorem forward_names_inert :
    (∀ items others : List Item, (∀ item ∈ items, item.isSited = true) →
      SameButForward [] items others → Run.resolve items = Run.resolve others) ∧
    ∀ (before after : List Item) (level : Level) (site : Option Site),
      (∀ item ∈ before ++ after, item.isSited = true) →
      (∀ left name right, name ∉ definedHere before →
        Run.resolve (before ++ .event (.targeted level (left ++ name :: right) site) :: after) =
          Run.resolve (before ++ .event (.targeted level (left ++ right) site) :: after)) ∧
      ∀ xs ys : List String,
        xs.filter (· ∈ definedHere before) = ys.filter (· ∈ definedHere before) →
        Run.resolve (before ++ .event (.targeted level xs site) :: after) =
          Run.resolve (before ++ .event (.targeted level ys site) :: after) := by
  refine ⟨fun items others hsited h => Run.resolve_of_sameButForward h hsited, ?_⟩
  intro before after level site hsited
  have htargets : ∀ xs ys : List String,
      (∀ name ∈ definedHere before, name ∈ xs ↔ name ∈ ys) →
      Run.resolve (before ++ .event (.targeted level xs site) :: after) =
        Run.resolve (before ++ .event (.targeted level ys site) :: after) := by
    intro xs ys hnames
    refine Run.resolve_of_sameButForward (.replace [] (.targeted level site hnames) after) ?_
    intro item hitem
    rw [List.mem_append, List.mem_cons] at hitem
    rw [List.forall_mem_append] at hsited
    rcases hitem with hitem | rfl | hitem
    · exact hsited.1 item hitem
    · rfl
    · exact hsited.2 item hitem
  refine ⟨?_, ?_⟩
  · intro left name right hforward
    refine htargets _ _ fun id hid => ?_
    have hne : id ≠ name := fun heq => hforward (heq ▸ hid)
    simp [hne]
  · intro xs ys hsame
    refine htargets _ _ fun id hid => ?_
    have hmem : id ∈ xs.filter (· ∈ definedHere before) ↔
        id ∈ ys.filter (· ∈ definedHere before) := by rw [hsame]
    simpa [hid] using hmem

/-- A class with a method, a directive and, after it, a method of the directive. -/
def earlyStream (targets : List String) : List Item :=
  [.event (.openScope .typeBody (some "A") none), .event (.method "a" (some ⟨2, none, 2⟩))] ++
    .event (.targeted .priv targets none) ::
      [.event (.method "late" (some ⟨4, none, 2⟩)), .event (.closeScope none)]

/-- Of the targets in `earlyStream`, no other than the method before the directive matters. -/
theorem forward_names_inert_earlyStream :
    (∀ item ∈ earlyStream ["a"], item.isSited = true) ∧
      Run.resolve (earlyStream ["never", "late", "a", "late"]) =
        Run.resolve (earlyStream ["late", "a"]) ∧
      Run.resolve (earlyStream ["late", "a"]) = Run.resolve (earlyStream ["a"]) ∧
      Run.resolve (earlyStream ["a"]) = Run.resolve (earlyStream ["a", "late"]) ∧
      Run.resolve (earlyStream ["a"]) = .ok
        [⟨"a", ⟨2, none, 2⟩, .priv, some "A", false⟩,
          ⟨"late", ⟨4, none, 2⟩, .pub, some "A", false⟩] := by
  have hsited : ∀ item ∈ earlyStream ["a"], item.isSited = true := by decide
  obtain ⟨hstreams, hone⟩ := forward_names_inert
  obtain ⟨hremove, hfilter⟩ := hone
    [.event (.openScope .typeBody (some "A") none), .event (.method "a" (some ⟨2, none, 2⟩))]
    [.event (.method "late" (some ⟨4, none, 2⟩)), .event (.closeScope none)] .priv none (by decide)
  refine ⟨hsited, hfilter _ _ (by decide), hremove [] "late" ["a"] (by decide), ?_, rfl⟩
  exact hstreams _ _ hsited (.replace [] (.targeted .priv none (by decide)) _)

end MethodVisibility
