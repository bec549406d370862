/-
  No leak across the borders of a scope.

  A stack may stand on other frames (`Stack.upon`). Events that never dig below a stack do the
  same whatever these are: `Stack.Turns` says what they do for all of them at once, one event
  after the other (`Stack.exists_turns_event`, `Stack.exists_turns`).

  A `Segment` is a scope of a stream from its opening to its close. The frame that it opens
  takes the owner and the singleton flag of the frame around it and nothing else, so that the
  records of a segment are a function of these two (`Segment.records`); the frames around it
  are left as they are (`Segment.leads`).

  `segment_confined`: hence one segment in the place of another changes no record from outside.
-/
import MethodVisibility.Proofs.Nesting

namespace MethodVisibility

/-! ## Frames below -/

namespace Stack

/-- A stack that stands on other frames. -/
def upon (s : Stack) (base : List Frame) : Stack :=
  ⟨s.current, s.outer ++ base⟩

@[simp] theorem upon_nil (s : Stack) : s.upon [] = s := by
  simp [upon]

/-- The events lead from one stack to another and add records, whatever frames the stack
    stands on and whatever records there are. -/
def Turns (s : Stack) (events : List Event) (added : List MethodRecord) (s' : Stack) : Prop :=
  ∀ base records, (Run.mk (s.upon base) records).Leads (events.map .event)
    ⟨s'.upon base, records ++ added⟩

namespace Turns

variable {s t u : Stack}

theorem nil (s : Stack) : s.Turns [] [] s := by
  intro base records
  rw [List.append_nil]
  exact Run.Leads.nil _

theorem append {xs ys : List Event} {added more : List MethodRecord} (h : s.Turns xs added t)
    (h' : t.Turns ys more u) : s.Turns (xs ++ ys) (added ++ more) u := by
  intro base records
  rw [List.map_append, ← List.append_assoc]
  exact (h base records).append (h' base (records ++ added))

/-- One event that is taken over every base. -/
theorem single {e : Event} {added : List MethodRecord}
    (h : ∀ base records, (Run.mk (s.upon base) records).step 0 e =
      .ok ⟨t.upon base, records ++ added⟩) : s.Turns [e] added t :=
  fun base records => Run.Leads.single (h base records)

end Turns

/-- An event that opens or closes nothing below a stack is taken, and what it does has nothing
    to do with the frames there. -/
theorem exists_turns_event (s : Stack) {e : Event} {rest : List Event} {depth : Nat}
    (hdepth : depthAfter s.outer.length (e :: rest) = some depth) (hsited : e.isSited = true) :
    ∃ added t, s.Turns [e] added t ∧ depthAfter t.outer.length rest = some depth := by
  cases e with
  | openScope kind name site =>
    by_cases hkind : kind = .topLevel
    · simp [depthAfter, hkind] at hdepth
    · simp only [depthAfter, hkind, if_false] at hdepth
      refine ⟨[], ⟨s.current.inside kind name, s.current :: s.outer⟩, Turns.single ?_, hdepth⟩
      intro base records
      simp [Run.step, push, hkind, upon]
  | closeScope site =>
    cases houter : s.outer with
    | nil => simp [depthAfter, houter] at hdepth
    | cons frame outer =>
      simp only [depthAfter, houter, List.length_cons] at hdepth
      refine ⟨s.current.records, ⟨frame, outer⟩, Turns.single ?_, hdepth⟩
      intro base records
      simp [Run.step, pop, upon, houter]
  | bare level site =>
    refine ⟨[], s.setDefault level, Turns.single ?_, hdepth⟩
    intro base records
    simp [Run.step, setDefault, modify, upon]
  | targeted level targets site =>
    refine ⟨[], s.assignAll targets level, Turns.single ?_, hdepth⟩
    intro base records
    simp [Run.step, assignAll, modify, upon]
  | method identifier site =>
    refine ⟨[], s.assign identifier s.current.level site, Turns.single ?_, hdepth⟩
    intro base records
    simp [Run.step, Run.define, assign, modify, upon]
  | singletonMethod identifier site =>
    obtain ⟨at', rfl⟩ := Option.isSome_iff_exists.mp hsited
    by_cases hkind : s.current.kind = .singletonBody
    · refine ⟨[], s.assign identifier s.current.level (some at'), Turns.single ?_, hdepth⟩
      intro base records
      simp [Run.step, Run.exempt, Run.define, assign, modify, upon, hkind]
    · refine ⟨[.ofSingleton identifier at' s.current.owner], s, Turns.single ?_, hdepth⟩
      intro base records
      simp [Run.step, Run.exempt, Emission.records, upon, hkind]

/-- Events that never dig below a stack are taken, and what they do has nothing to do with the
    frames there. -/
theorem exists_turns (s : Stack) {events : List Event} {depth : Nat}
    (hdepth : depthAfter s.outer.length events = some depth) (hsited : Sited events) :
    ∃ added t, s.Turns events added t ∧ t.outer.length = depth := by
  induction events generalizing s with
  | nil => exact ⟨[], s, Turns.nil s, by simpa [depthAfter] using hdepth⟩
  | cons e rest ih =>
    obtain ⟨hhead, htail⟩ := sited_cons.mp hsited
    obtain ⟨added, t, hstep, hrest⟩ := s.exists_turns_event hdepth hhead
    obtain ⟨more, u, hrun, hlength⟩ := ih t hrest htail
    exact ⟨added ++ more, u, hstep.append hrun, hlength⟩

end Stack

/-! ## Segments -/

/-- A frame of which nothing is known but its owner and its singleton flag. -/
def Frame.blank (owner : Option String) (singleton : Bool) : Frame :=
  { Frame.topLevel with owner, singleton }

/-- Only the owner and the singleton flag of a frame reach the frames inside. -/
theorem Frame.inside_blank (f : Frame) (kind : ScopeKind) (name : Option String) :
    (blank f.owner f.singleton).inside kind name = f.inside kind name := rfl

/-- A scope of a stream, from its opening to its close. -/
structure Segment where
  kind : ScopeKind
  name : Option String
  openedAt : Option Site
  body : List Event
  closedAt : Option Site
  kind_ne : kind ≠ .topLevel
  nested : ProperlyNested body
  sited : Sited body

namespace Segment

/-- The events of a segment. -/
def events (s : Segment) : List Event :=
  .openScope s.kind s.name s.openedAt :: s.body ++ [.closeScope s.closedAt]

/-- The records of a segment that stands alone in a frame with this owner and flag. -/
def records (s : Segment) (owner : Option String) (singleton : Bool) : List MethodRecord :=
  match (Run.mk ⟨.blank owner singleton, []⟩ []).applyAll 0 (s.events.map .event) with
  | .ok r => r.records
  | .error _ => []

/-- A segment leaves every stack as it is, and adds the same records in all frames with the
    same owner and flag. -/
theorem exists_leads (s : Segment) (owner : Option String) (singleton : Bool) :
    ∃ added, ∀ r : Run, r.stack.current.owner = owner → r.stack.current.singleton = singleton →
      r.Leads (s.events.map .event) ⟨r.stack, r.records ++ added⟩ := by
  let inner : Stack := ⟨(Frame.blank owner singleton).inside s.kind s.name, []⟩
  obtain ⟨added, last, hbody, hlength⟩ := inner.exists_turns s.nested s.sited
  have hlast : last.outer = [] := List.length_eq_zero_iff.mp hlength
  refine ⟨added ++ last.current.records, ?_⟩
  rintro r rfl rfl
  have hopen : r.Leads [.event (.openScope s.kind s.name s.openedAt)]
      ⟨inner.upon r.stack.frames, r.records⟩ := by
    apply Run.Leads.single
    simp [Run.apply, Run.step, Stack.push, s.kind_ne, inner, Frame.inside_blank, Stack.upon,
      Stack.frames]
  have hclose : (Run.mk (last.upon r.stack.frames) (r.records ++ added)).Leads
      [.event (.closeScope s.closedAt)]
      ⟨r.stack, r.records ++ added ++ last.current.records⟩ := by
    apply Run.Leads.single
    simp [Run.apply, Run.step, Stack.pop, Stack.upon, Stack.frames, hlast]
  have hall := (hopen.append (hbody r.stack.frames r.records)).append hclose
  rw [List.append_assoc] at hall
  simpa [events] using hall

/-- A segment leaves every stack as it is. What it adds depends on the frame that it opens in
    only through the owner and the singleton flag. -/
theorem leads (s : Segment) (r : Run) :
    r.Leads (s.events.map .event)
      ⟨r.stack, r.records ++ s.records r.stack.current.owner r.stack.current.singleton⟩ := by
  obtain ⟨added, hadded⟩ := s.exists_leads r.stack.current.owner r.stack.current.singleton
  have halone := hadded ⟨⟨.blank r.stack.current.owner r.stack.current.singleton, []⟩, []⟩
    rfl rfl 0
  have hrecords : s.records r.stack.current.owner r.stack.current.singleton = added := by
    rw [records, halone]
    rfl
  rw [hrecords]
  exact hadded r rfl rfl

end Segment

/-! ## A segment in a stream -/

theorem depthAfter_append (depth : Nat) (xs ys : List Event) :
    depthAfter depth (xs ++ ys) = (depthAfter depth xs).bind (depthAfter · ys) := by
  induction xs generalizing depth with
  | nil => rfl
  | cons e rest ih =>
    cases e with
    | openScope kind name site =>
      by_cases hkind : kind = .topLevel <;> simp [depthAfter, hkind, ih]
    | closeScope site => cases depth <;> simp [depthAfter, ih]
    | _ => simp [depthAfter, ih]

/-- The records of a stream that goes on, after events that led to a run, with events that
    close all frames of that run. -/
theorem exists_resolve_of_leads {r : Run} {after : List Event}
    (hdepth : depthAfter r.stack.outer.length after = some 0) (hsited : Sited after) :
    ∃ later, ∀ (items : List Item) (added : List MethodRecord),
      Run.initial.Leads items ⟨r.stack, r.records ++ added⟩ →
        Run.resolve (items ++ after.map .event) = .ok (r.records ++ added ++ later) := by
  obtain ⟨more, last, hrun, hlength⟩ := r.stack.exists_turns hdepth hsited
  refine ⟨more ++ last.current.records, ?_⟩
  intro items added hitems
  have hafter := hrun [] (r.records ++ added)
  rw [Stack.upon_nil, Stack.upon_nil] at hafter
  rw [Run.resolve_of_leads (hitems.append hafter) (List.length_eq_zero_iff.mp hlength),
    List.append_assoc _ more]

/-- A segment is taken by every run. It leaves all open frames as they are and only adds
    records, which depend on the run through the owner and the singleton flag of the innermost
    frame. So the records of a nested stream around it are those of the stream without it, in
    the same order, whatever segment stands in its place. -/
theorem segment_confined (s : Segment) :
    (∀ r : Run, r.Leads (s.events.map .event)
      ⟨r.stack, r.records ++ s.records r.stack.current.owner r.stack.current.singleton⟩) ∧
    ∀ before after, ProperlyNested (before ++ s.events ++ after) → Sited (before ++ after) →
      ∃ r later, Run.initial.Leads (before.map .event) r ∧
        Run.resolve ((before ++ after).map .event) = .ok (r.records ++ later) ∧
        ∀ other : Segment, Run.resolve ((before ++ other.events ++ after).map .event) =
          .ok (r.records ++ other.records r.stack.current.owner r.stack.current.singleton
            ++ later) := by
  refine ⟨s.leads, ?_⟩
  intro before after hnested hsited
  obtain ⟨hbefore, hafter⟩ := List.forall_mem_append.mp hsited
  rw [ProperlyNested, depthAfter_append, depthAfter_append] at hnested
  obtain ⟨depth, hinner, hdepth⟩ := Option.bind_eq_some_iff.mp hnested
  obtain ⟨outer, houter, hsegment⟩ := Option.bind_eq_some_iff.mp hinner
  obtain ⟨added, stack, hrun, hlength⟩ := Stack.initial.exists_turns houter hbefore
  let r : Run := ⟨stack, added⟩
  have hr : Run.initial.Leads (before.map .event) r := by
    have hstart := hrun [] []
    rw [Stack.upon_nil, Stack.upon_nil, List.nil_append] at hstart
    exact hstart
  -- the segment leaves as many scopes open as there were
  have hsame : depth = stack.outer.length := by
    have := (s.leads r).depthAfter_eq
    rw [hlength, hsegment] at this
    exact (Option.some.inj this).trans hlength.symm
  rw [hsame] at hdepth
  obtain ⟨later, hlater⟩ := exists_resolve_of_leads (r := r) hdepth hafter
  refine ⟨r, later, hr, ?_, ?_⟩
  · have := hlater (before.map .event) [] (by simpa using hr)
    simpa using this
  · intro other
    have := hlater _ _ (hr.append (other.leads r))
    simpa using this

/-- A type with a default of its own, a singleton body and a name that the outside has too. -/
def innerType : Segment where
  kind := .typeBody
  name := some "B"
  openedAt := none
  body := [.bare .prot none, .method "a" (some ⟨3, none, 2⟩),
    .openScope .singletonBody none none, .method "s" (some ⟨5, none, 4⟩), .closeScope none,
    .targeted .priv ["a", "late"] none]
  closedAt := none
  kind_ne := by decide
  nested := by decide
  sited := by decide

/-- Around `innerType`: the default that is in force before it is in force after it, and what
    it names stays its own. -/
theorem segment_confined_innerType :
    let before : List Event := [.openScope .typeBody (some "A") none,
      .method "a" (some ⟨1, none, 2⟩), .bare .priv none]
    let after : List Event := [.method "late" (some ⟨9, none, 2⟩), .closeScope none]
    ProperlyNested (before ++ innerType.events ++ after) ∧ Sited (before ++ after) ∧
      ∃ (r : Run) (later : List MethodRecord),
        r.records ++ later = [⟨"a", ⟨1, none, 2⟩, .pub, some "A", false⟩,
          ⟨"late", ⟨9, none, 2⟩, .priv, some "A", false⟩] ∧
        ∀ other : Segment, Run.resolve ((before ++ other.events ++ after).map .event) =
          .ok (r.records ++ other.records r.stack.current.owner r.stack.current.singleton
            ++ later) := by
  intro before after
  have hnested : ProperlyNested (before ++ innerType.events ++ after) := by decide
  have hsited : Sited (before ++ after) := by decide
  obtain ⟨r, later, _, hwithout, hother⟩ :=
    (segment_confined innerType).2 before after hnested hsited
  refine ⟨hnested, hsited, r, later, ?_, hother⟩
  have hrecords : Run.resolve ((before ++ after).map .event) =
      .ok [⟨"a", ⟨1, none, 2⟩, .pub, some "A", false⟩,
        ⟨"late", ⟨9, none, 2⟩, .priv, some "A", false⟩] := by rfl
  exact Except.ok.inj (hwithout.symm.trans hrecords)

end MethodVisibility
