/-
  Nesting of streams, and runs over a list of events.

  `depthAfter` counts the scopes that are open after a stream; a stream is
  `ProperlyNested` if every close ends a scope that was opened before, nothing is left open
  and the scope of the file is not opened again. `Sited`: every definition has a site.

  `Run.Leads r items r'` says that a run goes from `r` to `r'` over `items`, at whatever
  position it starts: a position is only read when a run fails. The open frames of a run,
  seen as `Stack.heads`, depend on the events alone (`Leads.heads_eq`), so that a run that
  gets through has a nested stream behind it (`Leads.depthAfter_eq`).
-/
import MethodVisibility.Resolve

namespace MethodVisibility

/-! ## Nested streams -/

/-- How many scopes are open after a stream, if `depth` were open before it. There is no
    answer if a close has nothing to end or the scope of the file is opened again. -/
def depthAfter (depth : Nat) : List Event → Option Nat
  | [] => some depth
  | .openScope kind _ _ :: rest =>
    if kind = .topLevel then none else depthAfter (depth + 1) rest
  | .closeScope _ :: rest =>
    match depth with
    | 0 => none
    | outer + 1 => depthAfter outer rest
  | _ :: rest => depthAfter depth rest

/-- Every close ends a scope opened before, no scope is left open and none is the file's. -/
def ProperlyNested (events : List Event) : Prop :=
  depthAfter 0 events = some 0

instance (events : List Event) : Decidable (ProperlyNested events) :=
  inferInstanceAs (Decidable (_ = _))

/-- Whether an event has a site, if it is a definition. -/
def Event.isSited : Event → Bool
  | .method _ site => site.isSome
  | .singletonMethod _ site => site.isSome
  | _ => true

/-- Every definition has a site. -/
def Sited (events : List Event) : Prop :=
  ∀ e ∈ events, e.isSited = true

instance (events : List Event) : Decidable (Sited events) :=
  inferInstanceAs (Decidable (∀ e ∈ events, _))

theorem sited_cons {e : Event} {events : List Event} :
    Sited (e :: events) ↔ e.isSited = true ∧ Sited events := by
  simp [Sited]

/-! ## Runs that get through -/

/-- The run goes from `r` to `r'` over the items, wherever in a stream they stand. -/
def Run.Leads (r : Run) (items : List Item) (r' : Run) : Prop :=
  ∀ position, r.applyAll position items = .ok r'

namespace Run

theorem apply_position {r r' : Run} {p : Nat} {item : Item} (h : r.apply p item = .ok r')
    (q : Nat) : r.apply q item = .ok r' := by
  cases item with
  | alien => simp [apply] at h
  | event e =>
    cases e with
    | openScope kind name site =>
      simp only [apply, step] at h ⊢
      cases hpush : r.stack.push kind name with
      | ok stack => rwa [hpush] at h
      | error fault => rw [hpush] at h; cases h
    | closeScope site =>
      simp only [apply, step] at h ⊢
      cases hpop : r.stack.pop with
      | ok popped => rwa [hpop] at h
      | error fault => rw [hpop] at h; cases h
    | bare level site => exact h
    | targeted level targets site => exact h
    | method identifier site => exact h
    | singletonMethod identifier site => exact h

theorem applyAll_position {r r' : Run} {p : Nat} {items : List Item}
    (h : r.applyAll p items = .ok r') (q : Nat) : r.applyAll q items = .ok r' := by
  induction items generalizing r p q with
  | nil => exact h
  | cons item rest ih =>
    simp only [applyAll] at h ⊢
    cases hitem : r.apply p item with
    | error failure => rw [hitem] at h; cases h
    | ok s =>
      rw [hitem] at h
      rw [apply_position hitem q]
      exact ih h (q + 1)

namespace Leads

variable {r s t : Run} {xs ys : List Item}

theorem of_applyAll {p : Nat} (h : r.applyAll p xs = .ok s) : r.Leads xs s :=
  fun q => applyAll_position h q

theorem nil (r : Run) : r.Leads [] r :=
  fun _ => rfl

theorem cons {item : Item} (h : r.apply 0 item = .ok s) (hs : s.Leads xs t) :
    r.Leads (item :: xs) t := by
  intro p
  simp only [applyAll]
  rw [apply_position h p]
  exact hs (p + 1)

theorem single {item : Item} (h : r.apply 0 item = .ok s) : r.Leads [item] s :=
  cons h (nil s)

theorem cons_iff {item : Item} :
    r.Leads (item :: xs) t ↔ ∃ s, r.apply 0 item = .ok s ∧ s.Leads xs t := by
  constructor
  · intro h
    have h0 := h 0
    simp only [applyAll] at h0
    cases hitem : r.apply 0 item with
    | error failure => rw [hitem] at h0; cases h0
    | ok s =>
      rw [hitem] at h0
      exact ⟨s, rfl, of_applyAll h0⟩
  · rintro ⟨s, hs, hrest⟩
    exact cons hs hrest

theorem append_iff : r.Leads (xs ++ ys) t ↔ ∃ s, r.Leads xs s ∧ s.Leads ys t := by
  induction xs generalizing r with
  | nil =>
    constructor
    · intro h
      exact ⟨r, nil r, h⟩
    · rintro ⟨s, hs, ht⟩
      have : r = s := by simpa [applyAll] using hs 0
      exact this ▸ ht
  | cons item rest ih =>
    rw [List.cons_append, cons_iff]
    constructor
    · rintro ⟨u, hu, hrest⟩
      obtain ⟨s, hs, ht⟩ := ih.mp hrest
      exact ⟨s, cons hu hs, ht⟩
    · rintro ⟨s, hs, ht⟩
      obtain ⟨u, hu, hrest⟩ := cons_iff.mp hs
      exact ⟨u, hu, ih.mpr ⟨s, hrest, ht⟩⟩

theorem append (hs : r.Leads xs s) (ht : s.Leads ys t) : r.Leads (xs ++ ys) t :=
  append_iff.mpr ⟨s, hs, ht⟩

theorem unique (hs : r.Leads xs s) (ht : r.Leads xs t) : s = t :=
  Except.ok.inj ((hs 0).symm.trans (ht 0))

end Leads

end Run

/-! ## The open frames of a run -/

/-- A scope by its kind and name. -/
abbrev ScopeHead := ScopeKind × Option String

/-- Kind and name of the open frames, innermost first. -/
def Stack.heads (s : Stack) : List ScopeHead :=
  s.frames.map fun f => (f.kind, f.name)

/-- The open scopes after an event, innermost first. -/
def headsAfter (heads : List ScopeHead) : Event → List ScopeHead
  | .openScope kind name _ => (kind, name) :: heads
  | .closeScope _ => heads.tail
  | _ => heads

theorem Stack.heads_length (s : Stack) : s.heads.length = s.outer.length + 1 := by
  simp [heads, frames]

theorem Frame.kind_assignAll (f : Frame) (names : List String) (level : Level) :
    (f.assignAll names level).kind = f.kind ∧ (f.assignAll names level).name = f.name := by
  unfold assignAll
  induction names generalizing f with
  | nil => exact ⟨rfl, rfl⟩
  | cons name rest ih => exact ih (f.assign name level none)

namespace Run

/-- An event that is taken opens a scope, closes one, or leaves the open scopes as they
    are. -/
theorem heads_step {r r' : Run} {p : Nat} {e : Event} (h : r.step p e = .ok r') :
    r'.stack.heads = headsAfter r.stack.heads e := by
  cases e with
  | openScope kind name site =>
    simp only [step, Stack.push] at h
    by_cases hkind : kind = .topLevel
    · simp [hkind] at h
    · simp only [hkind, if_false, Except.ok.injEq] at h
      rw [← h]
      rfl
  | closeScope site =>
    simp only [step, Stack.pop] at h
    cases houter : r.stack.outer with
    | nil => simp [houter] at h
    | cons frame rest =>
      simp only [houter, Except.ok.injEq] at h
      rw [← h]
      simp [Stack.heads, Stack.frames, headsAfter, houter]
  | bare level site =>
    simp only [step, Except.ok.injEq] at h
    rw [← h]
    rfl
  | targeted level targets site =>
    simp only [step, Except.ok.injEq] at h
    obtain ⟨hkind, hname⟩ := Frame.kind_assignAll r.stack.current targets level
    rw [← h]
    simp [Stack.heads, Stack.frames, Stack.assignAll, Stack.modify, headsAfter, hkind, hname]
  | method identifier site =>
    simp only [step, Except.ok.injEq] at h
    rw [← h]
    rfl
  | singletonMethod identifier site =>
    simp only [step] at h
    split at h
    · split at h
      · cases h; rfl
      · cases h
    · cases h; rfl

theorem depthAfter_cons_of_step {r r' : Run} {p : Nat} {e : Event} (h : r.step p e = .ok r')
    (rest : List Event) :
    depthAfter r.stack.outer.length (e :: rest) = depthAfter r'.stack.outer.length rest := by
  have hlen := congrArg List.length (heads_step h)
  rw [Stack.heads_length] at hlen
  cases e with
  | openScope kind name site =>
    have hkind : kind ≠ .topLevel := by
      rintro rfl
      simp [step, Stack.push] at h
    have : r'.stack.outer.length = r.stack.outer.length + 1 := by
      simpa [headsAfter, Stack.heads_length] using hlen
    simp [depthAfter, hkind, this]
  | closeScope site =>
    cases houter : r.stack.outer with
    | nil => simp [step, Stack.pop, houter] at h
    | cons frame outer =>
      have : r'.stack.outer.length = outer.length := by
        simp [headsAfter, Stack.heads_length, houter] at hlen
        exact hlen
      simp [depthAfter, this]
  | bare _ _ | targeted _ _ _ | method _ _ | singletonMethod _ _ =>
    have : r'.stack.outer.length = r.stack.outer.length := by
      simpa [headsAfter, Stack.heads_length] using hlen
    simp [depthAfter, this]

namespace Leads

variable {r r' : Run} {events : List Event}

theorem heads_eq (h : r.Leads (events.map .event) r') :
    r'.stack.heads = events.foldl headsAfter r.stack.heads := by
  induction events generalizing r with
  | nil => rw [unique h (nil r)]; rfl
  | cons e rest ih =>
    obtain ⟨s, hs, hrest⟩ := cons_iff.mp h
    rw [ih hrest, heads_step hs, List.foldl_cons]

theorem depthAfter_eq (h : r.Leads (events.map .event) r') :
    depthAfter r.stack.outer.length events = some r'.stack.outer.length := by
  induction events generalizing r with
  | nil => rw [unique h (nil r)]; rfl
  | cons e rest ih =>
    obtain ⟨s, hs, hrest⟩ := cons_iff.mp h
    rw [depthAfter_cons_of_step hs, ih hrest]

end Leads

/-- A stream that leads back to the frame of the file is resolved. -/
theorem resolve_of_leads {items : List Item} {r : Run} (h : initial.Leads items r)
    (houter : r.stack.outer = []) :
    resolve items = .ok (r.records ++ r.stack.current.records) := by
  simp [resolve, h 0, finish, Stack.finish, houter]

end Run

end MethodVisibility
