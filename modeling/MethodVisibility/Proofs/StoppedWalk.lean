/-
  Walks that are left before their end.

  A walk may be stopped after a number of events. What it has said by then is the beginning of
  what it says in full, up to that event (`Walker.exists_said`). Its scopes are those of the
  start with the scopes that the events opened and did not close (`unclosed?`), but for a scope
  whose opening is the last event: it is said and not yet entered (`entered`).

  Between two tasks the scopes are tied to the events by `Tracks`, which every task keeps. A walk
  `Rests` wherever it can be left: at its start, at its end, and after a task that said an event
  (`Tracks.rests`). One that goes on without a word may be in a scope that was the last to open.

  `stopped_walk`: this for every session, tree and number of events.
-/
import MethodVisibility.Proofs.Recital

namespace MethodVisibility

/-! ## The first outputs -/

namespace Output

theorem takeEvents_append (n : Nat) (xs ys : List Output) :
    takeEvents n (xs ++ ys) = takeEvents n xs ++ takeEvents (n - (eventsOf xs).length) ys := by
  induction xs generalizing n with
  | nil =>
    cases n with
    | zero => simp [takeEvents]
    | succ n => simp [takeEvents]
  | cons o rest ih =>
    cases n with
    | zero => simp [takeEvents]
    | succ n =>
      cases o with
      | event e => simp [takeEvents, eventsOf, event?, ih]
      | rejected r => exact congrArg (rejected r :: ·) (ih (n + 1))
      | unnamed start => exact congrArg (unnamed start :: ·) (ih (n + 1))

theorem eventsOf_takeEvents (n : Nat) (outputs : List Output) :
    eventsOf (takeEvents n outputs) = (eventsOf outputs).take n := by
  induction outputs generalizing n with
  | nil => cases n <;> rfl
  | cons o rest ih =>
    cases n with
    | zero => rfl
    | succ n =>
      cases o with
      | event e => exact congrArg (e :: ·) (ih n)
      | rejected r => exact ih (n + 1)
      | unnamed start => exact ih (n + 1)

theorem takeEvents_prefix (n : Nat) (outputs : List Output) : takeEvents n outputs <+: outputs := by
  induction outputs generalizing n with
  | nil => cases n <;> exact List.prefix_rfl
  | cons o rest ih =>
    cases n with
    | zero => exact List.nil_prefix
    | succ n =>
      cases o with
      | event e => exact List.cons_prefix_cons.mpr ⟨rfl, ih n⟩
      | rejected r => exact List.cons_prefix_cons.mpr ⟨rfl, ih (n + 1)⟩
      | unnamed start => exact List.cons_prefix_cons.mpr ⟨rfl, ih (n + 1)⟩

end Output

/-- What tasks say to the end, and what they say if they are stopped after some events. -/
theorem Walker.exists_said (ctx : Context) (scopes : List ScopeKind) (tasks : List Task) :
    ∃ outputs, ∀ said : Array Output,
      ((Walker.mk scopes tasks said).consume ctx none).said.toList = said.toList ++ outputs ∧
      ∀ n, ((Walker.mk scopes tasks said).consume ctx (some n)).said.toList =
        said.toList ++ Output.takeEvents n outputs := by
  cases tasks with
  | nil =>
    refine ⟨[], fun said => ⟨by simp [consume], fun n => ?_⟩⟩
    cases n <;> simp [consume, Output.takeEvents]
  | cons task rest =>
    have hlt := ctx.weightAll_step_lt scopes task
    obtain ⟨outputs, hsaid⟩ := exists_said ctx (ctx.step scopes task).scopes
      ((ctx.step scopes task).next ++ rest)
    refine ⟨(ctx.step scopes task).outputs ++ outputs, fun said => ⟨?_, fun n => ?_⟩⟩
    · rw [consume]
      simp [(hsaid _).1]
    · cases n with
      | zero => simp [consume, Output.takeEvents]
      | succ n =>
        rw [consume]
        simp [(hsaid _).2, Output.takeEvents_append]
termination_by Task.weightAll tasks
decreasing_by
  simp only [Task.weightAll_append, Task.weightAll_cons]
  omega

/-! ## Scopes that are left open -/

/-- The kinds of the scopes that events leave open, innermost first, if `opened` are open before
    them. There is no answer if a close has nothing to end. -/
def unclosed? (opened : List ScopeKind) : List Event → Option (List ScopeKind)
  | [] => some opened
  | .openScope kind _ _ :: rest => unclosed? (kind :: opened) rest
  | .closeScope _ :: rest =>
    match opened with
    | [] => none
    | _ :: outer => unclosed? outer rest
  | _ :: rest => unclosed? opened rest

/-- Events without an opening that is the last of them. -/
def entered (events : List Event) : List Event :=
  match events.getLast? with
  | some (.openScope _ _ _) => events.dropLast
  | _ => events

theorem unclosed?_append (opened : List ScopeKind) (xs ys : List Event) :
    unclosed? opened (xs ++ ys) = (unclosed? opened xs).bind (unclosed? · ys) := by
  induction xs generalizing opened with
  | nil => rfl
  | cons e rest ih =>
    cases e with
    | openScope kind name site => exact ih (kind :: opened)
    | closeScope site =>
      cases opened with
      | nil => rfl
      | cons kind outer => exact ih outer
    | _ => exact ih opened

/-- Plain events leave the open scopes as they are. -/
theorem unclosed?_of_isPlain {inSingleton : Bool} {events : List Event}
    (h : ∀ e ∈ events, e.isPlain inSingleton = true) (opened : List ScopeKind) :
    unclosed? opened events = some opened := by
  induction events with
  | nil => rfl
  | cons e rest ih =>
    have hrest := ih fun e he => h e (List.mem_cons_of_mem _ he)
    cases e with
    | openScope kind name site => cases h _ List.mem_cons_self
    | closeScope site => cases h _ List.mem_cons_self
    | _ => exact hrest

/-- Whether an event opens a scope. -/
def Event.opens : Event → Bool
  | .openScope _ _ _ => true
  | _ => false

theorem entered_of_not_opens {events : List Event}
    (h : ∀ e, events.getLast? = some e → e.opens = false) : entered events = events := by
  unfold entered
  split
  · next hlast => cases h _ hlast
  · rfl

theorem entered_append_openScope (events : List Event) (kind : ScopeKind) (name : Option String)
    (site : Option Site) : entered (events ++ [.openScope kind name site]) = events := by
  simp [entered]

/-! ## Scopes and events between two tasks -/

/-- The scopes of a walk that started in `base`: `kinds` are those that it has entered and not
    left, and with the one that is announced they are those that its events leave open. -/
structure Tracks (base kinds : List ScopeKind) (w : Walker) : Prop where
  unclosed : unclosed? [] (eventsOf w.said.toList) = some (announced w.pending ++ kinds)
  scopes : w.scopes = kinds ++ base
  closes : w.pending.countP Task.closes = kinds.length
  waiting : ∀ t ∈ w.pending.tail, t.mayWait = true

/-- A walk that started in `base` is where it can be left. -/
def Rests (base : List ScopeKind) (w : Walker) : Prop :=
  ∃ kinds, unclosed? [] (entered (eventsOf w.said.toList)) = some kinds ∧
    w.scopes = kinds ++ base

theorem announced_of_all_mayWait {tasks : List Task} (h : ∀ t ∈ tasks, t.mayWait = true) :
    announced tasks = [] := by
  cases tasks with
  | nil => rfl
  | cons t rest => exact announced_of_mayWait (h t List.mem_cons_self) rest

namespace Tracks

variable {base kinds : List ScopeKind}

theorem start (base : List ScopeKind) (holder : Option Node) (root : Node) :
    Tracks base [] (.start base holder root) where
  unclosed := rfl
  scopes := rfl
  closes := rfl
  waiting := by simp [Walker.start]

/-- A walk rests if no scope is announced and the last event opened none. -/
theorem rests {w : Walker} (h : Tracks base kinds w) (hannounced : announced w.pending = [])
    (hlast : ∀ e, (eventsOf w.said.toList).getLast? = some e → e.opens = false) :
    Rests base w := by
  have hunclosed := h.unclosed
  rw [hannounced, List.nil_append] at hunclosed
  refine ⟨kinds, ?_, h.scopes⟩
  rw [entered_of_not_opens hlast, hunclosed]

/-- A walk with nothing left to do rests: the scopes are those of the start. -/
theorem rests_of_pending_nil {w : Walker} (h : Tracks base kinds w) (hpending : w.pending = []) :
    Rests base w := by
  have hcloses := h.closes
  have hunclosed := h.unclosed
  rw [hpending] at hcloses hunclosed
  obtain rfl : kinds = [] := List.length_eq_zero_iff.mp hcloses.symm
  refine h.rests (by rw [hpending]; rfl) fun e he => ?_
  cases e with
  | openScope kind name site =>
    -- an opening that comes last leaves its scope open
    obtain ⟨before, hevents⟩ := List.getLast?_eq_some_iff.mp he
    rw [hevents, unclosed?_append] at hunclosed
    cases hbefore : unclosed? [] before with
    | none => rw [hbefore] at hunclosed; cases hunclosed
    | some opened => rw [hbefore] at hunclosed; cases hunclosed
  | _ => rfl

variable {ctx : Context} {scopes : List ScopeKind} {rest : List Task} {said : Array Output}
  {heard : List Output}

/-- A look at a node, of which some events are heard. -/
theorem visit {holder : Option Node} {n : Node} {statement : Bool}
    (h : Tracks base kinds ⟨scopes, .visit holder n statement :: rest, said⟩)
    (hheard : eventsOf heard <+: eventsOf (ctx.visit scopes holder n statement).outputs) :
    Tracks base kinds ⟨(ctx.visit scopes holder n statement).scopes,
        (ctx.visit scopes holder n statement).next ++ rest, said ++ heard⟩ ∧
      (eventsOf heard ≠ [] → Rests base ⟨(ctx.visit scopes holder n statement).scopes,
        (ctx.visit scopes holder n statement).next ++ rest, said ++ heard⟩) := by
  obtain ⟨hscopes, hplain, hnext⟩ := ctx.quiet_visit scopes holder n statement
  have hheardPlain : ∀ e ∈ eventsOf heard, e.isPlain (inSingletonBody scopes) = true :=
    fun e he => hplain e (hheard.mem he)
  have hwait : ∀ t ∈ (ctx.visit scopes holder n statement).next ++ rest, t.mayWait = true := by
    intro t ht
    rcases List.mem_append.mp ht with ht | ht
    · exact (hnext t ht).1
    · exact h.waiting t ht
  have hnone : (ctx.visit scopes holder n statement).next.countP Task.closes = 0 :=
    List.countP_eq_zero.mpr fun t ht => by simp [(hnext t ht).2]
  have htracks : Tracks base kinds ⟨(ctx.visit scopes holder n statement).scopes,
      (ctx.visit scopes holder n statement).next ++ rest, said ++ heard⟩ := {
    unclosed := by
      have hunclosed := h.unclosed
      simp only [announced, List.nil_append] at hunclosed
      rw [announced_of_all_mayWait hwait, List.nil_append, Array.toList_appendList,
        eventsOf_append, unclosed?_append, hunclosed]
      exact unclosed?_of_isPlain hheardPlain kinds
    scopes := hscopes.trans h.scopes
    closes := by
      have hcloses := h.closes
      simp only [List.countP_cons, Task.closes] at hcloses
      simpa [List.countP_append, hnone] using hcloses
    waiting := fun t ht => hwait t (List.mem_of_mem_tail ht) }
  refine ⟨htracks, fun hsome => htracks.rests (announced_of_all_mayWait hwait) fun e he => ?_⟩
  have hlast : (eventsOf heard).getLast? = some e := by
    rw [Array.toList_appendList, eventsOf_append, List.getLast?_append] at he
    cases hheardLast : (eventsOf heard).getLast? with
    | none => exact absurd (List.getLast?_eq_none_iff.mp hheardLast) hsome
    | some last => rwa [hheardLast] at he
  have := hheardPlain e (List.mem_of_getLast? hlast)
  cases e with
  | openScope kind name site => cases this
  | _ => rfl

/-- An opening is heard, or nothing of it. -/
theorem openScope {n : Node} {kind : ScopeKind} {name : Option String}
    (h : Tracks base kinds ⟨scopes, .openScope n kind name :: rest, said⟩)
    (hheard : eventsOf heard = [.openScope kind name (some n.site)]) :
    Tracks base kinds ⟨scopes, .enterScope n kind :: rest, said ++ heard⟩ ∧
      Rests base ⟨scopes, .enterScope n kind :: rest, said ++ heard⟩ := by
  have hunclosed := h.unclosed
  simp only [announced, List.nil_append] at hunclosed
  have hevents : eventsOf (said ++ heard).toList =
      eventsOf said.toList ++ [.openScope kind name (some n.site)] := by
    rw [Array.toList_appendList, eventsOf_append, hheard]
  refine ⟨?_, kinds, ?_, h.scopes⟩
  · exact {
      unclosed := by
        rw [hevents, unclosed?_append, hunclosed]
        rfl
      scopes := h.scopes
      closes := h.closes
      waiting := h.waiting }
  · rw [hevents, entered_append_openScope, hunclosed]

theorem enterScope {n : Node} {kind : ScopeKind}
    (h : Tracks base kinds ⟨scopes, .enterScope n kind :: rest, said⟩)
    (hheard : eventsOf heard = []) :
    Tracks base (kind :: kinds) ⟨kind :: scopes,
      visits n.statementHolder n.statements true ++ [.closeScope n.site] ++ rest,
      said ++ heard⟩ := by
  have hwait : ∀ t ∈ visits n.statementHolder n.statements true ++ [.closeScope n.site] ++ rest,
      t.mayWait = true := by
    intro t ht
    rcases List.mem_append.mp ht with ht | ht
    · rcases List.mem_append.mp ht with ht | ht
      · exact (visits_wait _ _ _ t ht).1
      · rw [List.mem_singleton.mp ht]
        rfl
    · exact h.waiting t ht
  have hnone : (visits n.statementHolder n.statements true).countP Task.closes = 0 :=
    List.countP_eq_zero.mpr fun t ht => by simp [(visits_wait _ _ _ t ht).2]
  exact {
    unclosed := by
      have hunclosed := h.unclosed
      rw [announced_of_all_mayWait hwait, Array.toList_appendList, eventsOf_append, hheard,
        List.append_nil]
      exact hunclosed
    scopes := congrArg (kind :: ·) h.scopes
    closes := by
      have hcloses := h.closes
      simp only [List.countP_cons, Task.closes] at hcloses
      simp [List.countP_append, hnone, List.countP_cons, Task.closes] at hcloses ⊢
      omega
    waiting := fun t ht => hwait t (List.mem_of_mem_tail ht) }

theorem closeScope {site : Site} (h : Tracks base kinds ⟨scopes, .closeScope site :: rest, said⟩)
    (hheard : eventsOf heard = [.closeScope (some site)]) :
    Tracks base kinds.tail ⟨scopes.tail, rest, said ++ heard⟩ ∧
      Rests base ⟨scopes.tail, rest, said ++ heard⟩ := by
  have hcloses := h.closes
  simp only [List.countP_cons, Task.closes, if_true] at hcloses
  cases kinds with
  | nil => simp at hcloses
  | cons kind kinds =>
    have hunclosed := h.unclosed
    simp only [announced, List.nil_append] at hunclosed
    have hannounced : announced rest = [] := announced_of_all_mayWait h.waiting
    have hevents : eventsOf (said ++ heard).toList =
        eventsOf said.toList ++ [.closeScope (some site)] := by
      rw [Array.toList_appendList, eventsOf_append, hheard]
    have htracks : Tracks base kinds ⟨scopes.tail, rest, said ++ heard⟩ := {
      unclosed := by
        rw [hevents, unclosed?_append, hunclosed, hannounced]
        rfl
      scopes := by
        have hscopes : scopes = kind :: kinds ++ base := h.scopes
        rw [hscopes]
        rfl
      closes := by simpa using hcloses
      waiting := fun t ht => h.waiting t (List.mem_of_mem_tail ht) }
    refine ⟨htracks, htracks.rests hannounced fun e he => ?_⟩
    rw [hevents, List.getLast?_concat] at he
    cases he
    rfl

/-- A task that is heard up to some events keeps the scopes tied to the events, and if an event
    is heard then the walk rests. -/
theorem step {task : Task} (h : Tracks base kinds ⟨scopes, task :: rest, said⟩)
    (heard : List Output)
    (hheard : eventsOf heard <+: eventsOf (ctx.step scopes task).outputs)
    (hsome : eventsOf heard = [] → eventsOf (ctx.step scopes task).outputs = []) :
    (∃ kinds', Tracks base kinds' ⟨(ctx.step scopes task).scopes,
        (ctx.step scopes task).next ++ rest, said ++ heard⟩) ∧
      (eventsOf heard ≠ [] → Rests base ⟨(ctx.step scopes task).scopes,
        (ctx.step scopes task).next ++ rest, said ++ heard⟩) := by
  -- of a task that says one event, all is heard
  have hone : ∀ e, eventsOf (ctx.step scopes task).outputs = [e] → eventsOf heard = [e] := by
    intro e he
    rw [he] at hheard hsome
    cases hevents : eventsOf heard with
    | nil => cases hsome hevents
    | cons e' more =>
      rw [hevents] at hheard
      obtain ⟨rfl, hmore⟩ := List.cons_prefix_cons.mp hheard
      rw [List.prefix_nil.mp hmore]
  cases task with
  | visit holder n statement =>
    obtain ⟨htracks, hrests⟩ := h.visit hheard
    exact ⟨⟨kinds, htracks⟩, hrests⟩
  | openScope n kind name =>
    obtain ⟨htracks, hrests⟩ := h.openScope (hone _ rfl)
    exact ⟨⟨kinds, htracks⟩, fun _ => hrests⟩
  | enterScope n kind =>
    have hnone : eventsOf heard = [] := List.prefix_nil.mp hheard
    exact ⟨⟨kind :: kinds, h.enterScope hnone⟩, fun hsome => absurd hnone hsome⟩
  | closeScope site =>
    obtain ⟨htracks, hrests⟩ := h.closeScope (hone _ rfl)
    exact ⟨⟨kinds.tail, htracks⟩, fun _ => hrests⟩

end Tracks

/-- A walk that is stopped after some events is left where it rests. -/
theorem Tracks.rests_consume (ctx : Context) {base kinds scopes : List ScopeKind}
    {tasks : List Task} {said : Array Output} (h : Tracks base kinds ⟨scopes, tasks, said⟩)
    (n : Nat) (hstart : n = 0 → Rests base ⟨scopes, tasks, said⟩) :
    Rests base ((Walker.mk scopes tasks said).consume ctx (some n)) := by
  match htasks : tasks with
  | [] =>
    rw [Walker.consume]
    exact h.rests_of_pending_nil rfl
  | task :: rest =>
    have hlt := ctx.weightAll_step_lt scopes task
    rw [Walker.consume]
    by_cases hn : n = 0
    · rw [if_pos (by rw [hn])]
      exact hstart hn
    · rw [if_neg (by simpa using hn)]
      have hheard := Output.eventsOf_takeEvents n (ctx.step scopes task).outputs
      obtain ⟨⟨kinds', htracks⟩, hrests⟩ := h.step
        (Output.takeEvents n (ctx.step scopes task).outputs)
        (by rw [hheard]; exact List.take_prefix _ _)
        (by rw [hheard, List.take_eq_nil_iff]; intro hnone; exact hnone.resolve_left hn)
      refine htracks.rests_consume ctx _ fun hdone => hrests ?_
      -- as many events as were asked for have been heard
      rw [hheard, Ne, List.take_eq_nil_iff]
      rintro (hzero | hnone)
      · exact hn hzero
      · rw [hnone] at hdone
        exact hn hdone
termination_by Task.weightAll tasks
decreasing_by
  simp only [Task.weightAll_append, Task.weightAll_cons]
  omega

/-- A walk that is stopped after `n` events has said the first of what it says in full: the
    first `n` events, with the rejections up to there. It leaves the scopes of the session, with
    those on top that its events opened and did not close; an opening that is the last event
    does not count yet. A walk to the end leaves the scopes as they were, so that the next one
    says what it would say in any session with these scopes. -/
theorem stopped_walk (ctx : Context) (s : Session) (holder : Option Node) (root : Node) :
    (∀ n, ∃ kinds,
      (s.walk ctx (some n) holder root).1 <+: (s.walk ctx none holder root).1 ∧
      eventsOf (s.walk ctx (some n) holder root).1 =
        (eventsOf (s.walk ctx none holder root).1).take n ∧
      (s.walk ctx (some n) holder root).2.rejections <+:
        (s.walk ctx none holder root).2.rejections ∧
      unclosed? [] (entered (eventsOf (s.walk ctx (some n) holder root).1)) = some kinds ∧
      (s.walk ctx (some n) holder root).2.scopes = kinds ++ s.scopes) ∧
    (s.walk ctx none holder root).2.scopes = s.scopes ∧
    ∀ earlier limit holder' root',
      ((s.walk ctx none holder root).2.walk ctx limit holder' root').1 =
        (Session.walk ⟨s.scopes, earlier⟩ ctx limit holder' root').1 := by
  have hfull : (s.walk ctx none holder root).2.scopes = s.scopes := by
    simp only [Session.walk, Walker.start, Walker.consume_visit]
  refine ⟨fun n => ?_, hfull, fun earlier limit holder' root' => ?_⟩
  · obtain ⟨outputs, hsaid⟩ := Walker.exists_said ctx s.scopes [.visit holder root false]
    have hall : (s.walk ctx none holder root).1 = outputs := (hsaid #[]).1
    have hfirst : (s.walk ctx (some n) holder root).1 = Output.takeEvents n outputs :=
      (hsaid #[]).2 n
    have hprefix := Output.takeEvents_prefix n outputs
    obtain ⟨kinds, hunclosed, hscopes⟩ := (Tracks.start s.scopes holder root).rests_consume ctx n
      fun _ => ⟨[], rfl, rfl⟩
    refine ⟨kinds, ?_, ?_, ?_, hunclosed, hscopes⟩
    · rw [hfirst, hall]
      exact hprefix
    · rw [hfirst, hall, Output.eventsOf_takeEvents]
    · show s.rejections ++ rejectionsOf (s.walk ctx (some n) holder root).1 <+:
        s.rejections ++ rejectionsOf (s.walk ctx none holder root).1
      rw [hfirst, hall, List.prefix_append_right_inj]
      exact hprefix.filterMap _
  · show ((Walker.start (s.walk ctx none holder root).2.scopes holder' root').consume ctx
      limit).said.toList = _
    rw [hfull]
    rfl

end MethodVisibility
