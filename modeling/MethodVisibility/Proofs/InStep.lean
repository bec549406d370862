/-
  A walk and the run that draws from it go in step.

  A walk keeps a list of open scopes of its own, and the run that resolves its events keeps
  a stack of frames. `InStep w r` ties the two together between any two tasks of the walk:
  the kinds of the frames are the scopes of the walk, with the scope in front that has been
  announced and not yet entered, if there is one; and there is one pending close for every
  scope above the file's own. Every task keeps this (`InStep.advance`), because looking at a
  node says nothing that opens or closes a scope (`Context.quiet_visit`).

  `walk_in_step`: hence the events of a walk over any tree are properly nested and are
  resolved; whenever the walk looks at a node, and so may ask for the innermost scope, its
  scopes are the kinds of the open frames; no method with a receiver of its own is told to a
  run whose innermost frame is a singleton body; and the walk ends where it started.
-/
import MethodVisibility.Proofs.Nesting
import MethodVisibility.Resolver

namespace MethodVisibility

/-! ## The events of outputs -/

/-- The stream that a run draws from outputs. -/
def itemsOf (outputs : List Output) : List Item :=
  (eventsOf outputs).map .event

@[simp] theorem eventsOf_nil : eventsOf [] = [] := rfl

@[simp] theorem eventsOf_append (xs ys : List Output) :
    eventsOf (xs ++ ys) = eventsOf xs ++ eventsOf ys := by
  simp [eventsOf]

@[simp] theorem rejectionsOf_append (xs ys : List Output) :
    rejectionsOf (xs ++ ys) = rejectionsOf xs ++ rejectionsOf ys := by
  simp [rejectionsOf]

@[simp] theorem itemsOf_append (xs ys : List Output) :
    itemsOf (xs ++ ys) = itemsOf xs ++ itemsOf ys := by
  simp [itemsOf]

theorem items_feed (outputs : List Output) :
    Feed.items (outputs.map Output.feed) = itemsOf outputs := by
  induction outputs with
  | nil => rfl
  | cons o rest ih =>
    cases o with
    | event e => exact congrArg (Item.event e :: ·) ih
    | rejected r => exact ih
    | unnamed start => exact ih

/-! ## One task after the other -/

namespace Walker

/-- Does the first task, if there is one. -/
def advance (ctx : Context) (w : Walker) : Walker :=
  match w.pending with
  | [] => w
  | task :: rest =>
    let s := ctx.step w.scopes task
    ⟨s.scopes, s.next ++ rest, w.said ++ s.outputs⟩

theorem consume_of_pending_nil (ctx : Context) {w : Walker} (h : w.pending = []) :
    w.consume ctx none = w := by
  obtain ⟨scopes, pending, said⟩ := w
  cases h
  rw [consume]

theorem consume_advance (ctx : Context) (w : Walker) :
    (w.advance ctx).consume ctx none = w.consume ctx none := by
  obtain ⟨scopes, pending, said⟩ := w
  cases pending with
  | nil => rfl
  | cons task rest =>
    conv => rhs; rw [consume]
    simp [advance]

/-- A walk over a tree in a fresh session, after some of its tasks. -/
inductive Reached (ctx : Context) (holder : Option Node) (root : Node) : Walker → Prop
  | start : Reached ctx holder root (start Session.initial.scopes holder root)
  | advance {w : Walker} : Reached ctx holder root w → Reached ctx holder root (w.advance ctx)

theorem weightAll_advance_lt (ctx : Context) {w : Walker} (h : w.pending ≠ []) :
    Task.weightAll (w.advance ctx).pending < Task.weightAll w.pending := by
  obtain ⟨scopes, pending, said⟩ := w
  cases pending with
  | nil => exact absurd rfl h
  | cons task rest =>
    have := ctx.weightAll_step_lt scopes task
    simp only [advance, Task.weightAll_append, Task.weightAll_cons]
    omega

/-- A walk that is consumed to the end gets there task by task. -/
theorem Reached.consume {ctx : Context} {holder : Option Node} {root : Node} {w : Walker}
    (h : Reached ctx holder root w) :
    Reached ctx holder root (w.consume ctx none) ∧ (w.consume ctx none).pending = [] := by
  by_cases hpending : w.pending = []
  · rw [consume_of_pending_nil ctx hpending]
    exact ⟨h, hpending⟩
  · rw [← consume_advance]
    exact Reached.consume h.advance
termination_by Task.weightAll w.pending
decreasing_by exact weightAll_advance_lt ctx hpending

end Walker

/-! ## What a look at a node can do -/

/-- Whether an event leaves the open scopes alone, has a site if it defines something, and
    is no method with a receiver of its own inside a singleton body. -/
def Event.isPlain (inSingleton : Bool) : Event → Bool
  | .openScope _ _ _ | .closeScope _ => false
  | .bare _ _ | .targeted _ _ _ => true
  | .method _ site => site.isSome
  | .singletonMethod _ site => site.isSome && !inSingleton

/-- Whether a task may wait behind another: the scope that it opens is not the file's, and it
    does not enter a scope. -/
def Task.mayWait : Task → Bool
  | .visit _ _ _ | .closeScope _ => true
  | .openScope _ kind _ => kind ≠ .topLevel
  | .enterScope _ _ => false

/-- Whether a task ends a scope. -/
def Task.closes : Task → Bool
  | .closeScope _ => true
  | _ => false

/-- A step that leaves the scopes as they are, says only plain events, and brings only tasks
    that may wait and close nothing. -/
structure Quiet (scopes : List ScopeKind) (s : Step) : Prop where
  scopes_eq : s.scopes = scopes
  plain : ∀ e ∈ eventsOf s.outputs, e.isPlain (inSingletonBody scopes) = true
  next : ∀ t ∈ s.next, t.mayWait = true ∧ t.closes = false

theorem visits_wait (holder : Node) (nodes : List Node) (statement : Bool) :
    ∀ t ∈ visits holder nodes statement, t.mayWait = true ∧ t.closes = false := by
  intro t ht
  obtain ⟨n, _, rfl⟩ := List.mem_map.mp ht
  exact ⟨rfl, rfl⟩

namespace Context

/-- No node is the scope of a file. -/
theorem form_ne_topLevel (ctx : Context) (holder : Option Node) (n : Node) :
    (∀ name, ctx.form holder n ≠ .scope .topLevel name) ∧
      ∀ name block, ctx.form holder n ≠ .scopeCall .topLevel name block := by
  have hblock : ctx.blockScope? n ≠ some .topLevel := by
    unfold blockScope?
    repeat' split
    all_goals simp
  have hcall : (∀ name, ctx.callForm holder n ≠ .scope .topLevel name) ∧
      ∀ name block, ctx.callForm holder n ≠ .scopeCall .topLevel name block := by
    unfold callForm
    split
    · simp
    · split
      · next kind _ hkind =>
        have hne : kind ≠ .topLevel := by
          rintro rfl
          exact hblock hkind
        simp [hne]
      · simp
  unfold form
  repeat' split
  all_goals first | exact hcall | simp

/-- What is said of a definition is plain. -/
theorem plain_definition (ctx : Context) (inSingleton : Bool) (n : Node) :
    ∀ e ∈ eventsOf [ctx.definition inSingleton n], e.isPlain inSingleton = true := by
  intro e he
  simp only [definition] at he
  cases hname : ctx.name? n with
  | none => simp [eventsOf, hname, Output.event?] at he
  | some identifier =>
    rw [hname] at he
    by_cases hkind : (n.kind = "singleton_method" && !inSingleton) = true
    · simp only [hkind, if_true] at he
      obtain rfl : e = _ := by simpa [eventsOf, Output.event?] using he
      have : inSingleton = false := by simpa using (Bool.and_eq_true_iff.mp hkind).2
      simp [Event.isPlain, this]
    · simp only [hkind] at he
      obtain rfl : e = _ := by simpa [eventsOf, Output.event?] using he
      rfl

theorem plain_definitions (ctx : Context) (inSingleton : Bool) (targets : List Target) :
    ∀ e ∈ eventsOf (ctx.definitions inSingleton targets), e.isPlain inSingleton = true := by
  induction targets with
  | nil => intro e he; simp [definitions] at he
  | cons target rest ih =>
    intro e he
    cases target with
    | name identifier => exact ih e he
    | definition n =>
      have hsplit : ctx.definitions inSingleton (.definition n :: rest) =
          [ctx.definition inSingleton n] ++ ctx.definitions inSingleton rest := rfl
      rw [hsplit, eventsOf_append] at he
      rcases List.mem_append.mp he with he | he
      · exact ctx.plain_definition inSingleton n e he
      · exact ih e he

theorem plain_direct (ctx : Context) (inSingleton : Bool) (level : Level) (site : Site)
    (targets : List Target) :
    ∀ e ∈ eventsOf (ctx.direct inSingleton level site targets), e.isPlain inSingleton = true := by
  intro e he
  cases targets with
  | nil =>
    obtain rfl : e = _ := by simpa [direct, eventsOf, Output.event?] using he
    rfl
  | cons target rest =>
    simp only [direct, eventsOf_append] at he
    rcases List.mem_append.mp he with he | he
    · exact ctx.plain_definitions inSingleton (target :: rest) e he
    · obtain rfl : e = _ := by simpa [eventsOf, Output.event?] using he
      rfl

/-- Looking at a node neither opens nor closes a scope. -/
theorem quiet_visit (ctx : Context) (scopes : List ScopeKind) (holder : Option Node) (n : Node)
    (statement : Bool) : Quiet scopes (ctx.visit scopes holder n statement) := by
  obtain ⟨hscope, hcall⟩ := ctx.form_ne_topLevel holder n
  unfold visit
  split
  · next kind name hform =>
    have hkind : kind ≠ .topLevel := fun h => hscope name (h ▸ hform)
    exact ⟨rfl, by simp, by simp [Task.mayWait, Task.closes, hkind]⟩
  · exact ⟨rfl, ctx.plain_definition _ n, by simp⟩
  · split
    · exact ⟨rfl, by simp [eventsOf, Output.event?], visits_wait _ _ _⟩
    · exact ⟨rfl, ctx.plain_direct _ _ _ _, by simp⟩
  · next kind name block hform =>
    have hkind : kind ≠ .topLevel := fun h => hcall name block (h ▸ hform)
    refine ⟨rfl, by simp, ?_⟩
    intro t ht
    rcases List.mem_append.mp ht with ht | ht
    · exact visits_wait _ _ _ t ht
    · obtain rfl := List.mem_singleton.mp ht
      simp [Task.mayWait, Task.closes, hkind]
  · refine ⟨rfl, ?_, by simp⟩
    split
    · simp [eventsOf, Output.event?, Event.isPlain]
    · simp
  · exact ⟨rfl, by simp, by simp⟩
  · exact ⟨rfl, by simp, visits_wait _ _ _⟩

end Context

/-! ## Runs over plain events -/

/-- The kinds of the open frames, innermost first. -/
def Stack.kinds (s : Stack) : List ScopeKind :=
  s.frames.map (·.kind)

theorem Stack.kinds_eq_map_heads (s : Stack) : s.kinds = s.heads.map (·.1) := by
  simp [kinds, heads, Function.comp_def]

namespace Run

/-- A plain event is taken, and the open frames are the same after it. -/
theorem leads_plain (r : Run) {inSingleton : Bool} {e : Event}
    (h : e.isPlain inSingleton = true) :
    ∃ r', r.Leads [.event e] r' ∧ r'.stack.heads = r.stack.heads := by
  have hstep : ∃ r', r.step 0 e = .ok r' := by
    cases e with
    | openScope _ _ _ => simp [Event.isPlain] at h
    | closeScope _ => simp [Event.isPlain] at h
    | bare level site => exact ⟨_, rfl⟩
    | targeted level targets site => exact ⟨_, rfl⟩
    | method identifier site => exact ⟨_, rfl⟩
    | singletonMethod identifier site =>
      have hsome : site.isSome = true := (Bool.and_eq_true_iff.mp h).1
      obtain ⟨at', rfl⟩ := Option.isSome_iff_exists.mp hsome
      simp only [step, Emission.records]
      split <;> exact ⟨_, rfl⟩
  obtain ⟨r', hr'⟩ := hstep
  refine ⟨r', Leads.single hr', ?_⟩
  rw [heads_step hr']
  cases e with
  | openScope _ _ _ => simp [Event.isPlain] at h
  | closeScope _ => simp [Event.isPlain] at h
  | _ => rfl

theorem leads_plain_all (r : Run) {inSingleton : Bool} {events : List Event}
    (h : ∀ e ∈ events, e.isPlain inSingleton = true) :
    ∃ r', r.Leads (events.map .event) r' ∧ r'.stack.heads = r.stack.heads := by
  induction events generalizing r with
  | nil => exact ⟨r, Leads.nil r, rfl⟩
  | cons e rest ih =>
    obtain ⟨s, hs, hheads⟩ := r.leads_plain (h e List.mem_cons_self)
    obtain ⟨r', hr', hsame⟩ := ih s fun e he => h e (List.mem_cons_of_mem _ he)
    exact ⟨r', hs.append hr', hsame.trans hheads⟩

end Run

/-! ## The invariant -/

/-- The scope that has been announced and is not yet entered, if there is one. -/
def announced : List Task → List ScopeKind
  | .enterScope _ kind :: _ => [kind]
  | _ => []

theorem announced_of_mayWait {t : Task} (h : t.mayWait = true) (rest : List Task) :
    announced (t :: rest) = [] := by
  cases t with
  | enterScope n kind => simp [Task.mayWait] at h
  | _ => rfl

/-- A walk and a run that has taken all the events said so far. -/
structure InStep (w : Walker) (r : Run) : Prop where
  kinds : r.stack.kinds = announced w.pending ++ w.scopes
  closes : w.pending.countP Task.closes + 1 = w.scopes.length
  bottom : w.scopes.getLast? = some .topLevel
  waiting : ∀ t ∈ w.pending.tail, t.mayWait = true
  first : ∀ n kind name rest, w.pending = .openScope n kind name :: rest → kind ≠ .topLevel

namespace InStep

theorem initial (holder : Option Node) (root : Node) :
    InStep (Walker.start Session.initial.scopes holder root) Run.initial where
  kinds := rfl
  closes := rfl
  bottom := rfl
  waiting := by simp [Walker.start]
  first := by simp [Walker.start]

/-- Tasks that may wait can come first. -/
theorem of_mayWait {w : Walker} {r : Run} (hkinds : r.stack.kinds = w.scopes)
    (hcloses : w.pending.countP Task.closes + 1 = w.scopes.length)
    (hbottom : w.scopes.getLast? = some .topLevel)
    (hwait : ∀ t ∈ w.pending, t.mayWait = true) : InStep w r where
  kinds := by
    cases hpending : w.pending with
    | nil => simpa [announced] using hkinds
    | cons t rest =>
      rw [announced_of_mayWait (hwait t (by rw [hpending]; exact List.mem_cons_self))]
      simpa using hkinds
  closes := hcloses
  bottom := hbottom
  waiting := fun t ht => hwait t (List.mem_of_mem_tail ht)
  first := by
    intro n kind name rest hpending
    have := hwait (.openScope n kind name) (by rw [hpending]; exact List.mem_cons_self)
    simpa [Task.mayWait] using this

variable (ctx : Context) {scopes : List ScopeKind} {rest : List Task} {said : Array Output}
  {r : Run}

theorem visit {holder : Option Node} {n : Node} {statement : Bool}
    (h : InStep ⟨scopes, .visit holder n statement :: rest, said⟩ r) :
    ∃ r', r.Leads (itemsOf (ctx.step scopes (.visit holder n statement)).outputs) r' ∧
      InStep (Walker.advance ctx ⟨scopes, .visit holder n statement :: rest, said⟩) r' := by
  obtain ⟨hscopes, hplain, hnext⟩ := ctx.quiet_visit scopes holder n statement
  obtain ⟨r', hr', hheads⟩ := r.leads_plain_all hplain
  refine ⟨r', hr', of_mayWait ?_ ?_ ?_ ?_⟩
  · have hkinds : r.stack.kinds = scopes := by simpa [announced] using h.kinds
    simp only [Walker.advance, Context.step, hscopes]
    rw [Stack.kinds_eq_map_heads, hheads, ← Stack.kinds_eq_map_heads, hkinds]
  · have hnone : (ctx.visit scopes holder n statement).next.countP Task.closes = 0 :=
      List.countP_eq_zero.mpr fun t ht => by simp [(hnext t ht).2]
    have hcloses := h.closes
    simp only [List.countP_cons, Task.closes] at hcloses
    simp only [Walker.advance, Context.step, hscopes, List.countP_append, hnone]
    simpa using hcloses
  · simpa only [Walker.advance, Context.step, hscopes] using h.bottom
  · intro t ht
    simp only [Walker.advance, Context.step] at ht
    rcases List.mem_append.mp ht with ht | ht
    · exact (hnext t ht).1
    · exact h.waiting t ht

theorem openScope {n : Node} {kind : ScopeKind} {name : Option String}
    (h : InStep ⟨scopes, .openScope n kind name :: rest, said⟩ r) :
    ∃ r', r.Leads (itemsOf (ctx.step scopes (.openScope n kind name)).outputs) r' ∧
      InStep (Walker.advance ctx ⟨scopes, .openScope n kind name :: rest, said⟩) r' := by
  have hkind : kind ≠ .topLevel := h.first n kind name rest rfl
  have hkinds : r.stack.kinds = scopes := by simpa [announced] using h.kinds
  refine ⟨⟨⟨r.stack.current.inside kind name, r.stack.frames⟩, r.records⟩,
    Run.Leads.single ?_, ?_⟩
  · simp [Run.apply, Run.step, Stack.push, hkind, Stack.frames]
  · exact {
      kinds := by
        simp only [Walker.advance, Context.step, List.cons_append, List.nil_append, announced]
        rw [← hkinds]
        rfl
      closes := by
        have hcloses := h.closes
        simp only [List.countP_cons, Task.closes] at hcloses
        simpa [Walker.advance, Context.step, List.countP_cons, Task.closes] using hcloses
      bottom := h.bottom
      waiting := h.waiting
      first := by simp [Walker.advance, Context.step] }

theorem enterScope {n : Node} {kind : ScopeKind}
    (h : InStep ⟨scopes, .enterScope n kind :: rest, said⟩ r) :
    ∃ r', r.Leads (itemsOf (ctx.step scopes (.enterScope n kind)).outputs) r' ∧
      InStep (Walker.advance ctx ⟨scopes, .enterScope n kind :: rest, said⟩) r' := by
  refine ⟨r, Run.Leads.nil r, of_mayWait ?_ ?_ ?_ ?_⟩
  · simpa [Walker.advance, Context.step, announced] using h.kinds
  · have hnone : (visits n.statementHolder n.statements true).countP Task.closes = 0 :=
      List.countP_eq_zero.mpr fun t ht => by simp [(visits_wait _ _ _ t ht).2]
    have hcloses := h.closes
    simp only [List.countP_cons, Task.closes] at hcloses
    simp only [Walker.advance, Context.step, List.countP_append, hnone, List.countP_cons,
      Task.closes, List.countP_nil, List.length_cons]
    simp only [if_true]
    simp at hcloses
    omega
  · have hbottom := h.bottom
    simp only at hbottom
    cases scopes with
    | nil => simp at hbottom
    | cons first others => simpa [Walker.advance, Context.step] using hbottom
  · intro t ht
    simp only [Walker.advance, Context.step, List.append_assoc] at ht
    rcases List.mem_append.mp ht with ht | ht
    · exact (visits_wait _ _ _ t ht).1
    · rcases List.mem_cons.mp ht with rfl | ht
      · rfl
      · exact h.waiting t ht

theorem closeScope {site : Site} (h : InStep ⟨scopes, .closeScope site :: rest, said⟩ r) :
    ∃ r', r.Leads (itemsOf (ctx.step scopes (.closeScope site)).outputs) r' ∧
      InStep (Walker.advance ctx ⟨scopes, .closeScope site :: rest, said⟩) r' := by
  have hkinds : r.stack.kinds = scopes := by simpa [announced] using h.kinds
  have hcloses := h.closes
  simp only [List.countP_cons, Task.closes, if_true] at hcloses
  have hlen : scopes.length = r.stack.outer.length + 1 := by
    rw [← hkinds]
    simp [Stack.kinds, Stack.frames]
  cases houter : r.stack.outer with
  | nil =>
    rw [houter] at hlen
    simp at hlen
    omega
  | cons frame outer =>
    have hscopes : scopes = r.stack.current.kind :: frame.kind :: outer.map (·.kind) := by
      rw [← hkinds]
      simp [Stack.kinds, Stack.frames, houter]
    refine ⟨⟨⟨frame, outer⟩, r.records ++ r.stack.current.records⟩, Run.Leads.single ?_,
      of_mayWait ?_ ?_ ?_ h.waiting⟩
    · simp [Run.apply, Run.step, Stack.pop, houter]
    · simp [Walker.advance, Context.step, hscopes, Stack.kinds, Stack.frames]
    · simp only [Walker.advance, Context.step, List.nil_append, List.length_tail]
      omega
    · have hbottom := h.bottom
      simp only [hscopes] at hbottom
      simpa [Walker.advance, Context.step, hscopes] using hbottom

/-- Every task keeps a walk and its run in step. -/
theorem advance {w : Walker} {r : Run} (h : InStep w r) {task : Task} {rest : List Task}
    (hpending : w.pending = task :: rest) :
    ∃ r', r.Leads (itemsOf (ctx.step w.scopes task).outputs) r' ∧
      InStep (w.advance ctx) r' := by
  obtain ⟨scopes, pending, said⟩ := w
  cases hpending
  cases task with
  | visit holder n statement => exact visit ctx h
  | openScope n kind name => exact openScope ctx h
  | enterScope n kind => exact enterScope ctx h
  | closeScope site => exact closeScope ctx h

end InStep

/-! ## Every step of a walk -/

namespace Run

/-- Along the events, no method with a receiver of its own is told to a run whose innermost
    frame is a singleton body. -/
def Exempt (r : Run) (events : List Event) : Prop :=
  ∀ before identifier site after, events = before ++ .singletonMethod identifier site :: after →
    ∃ r', r.Leads (before.map .event) r' ∧ r'.stack.current.kind ≠ .singletonBody

theorem Exempt.append {r s : Run} {xs ys : List Event} (hxs : r.Exempt xs)
    (hs : r.Leads (xs.map .event) s) (hys : s.Exempt ys) : r.Exempt (xs ++ ys) := by
  intro before identifier site after hsplit
  rcases List.append_eq_append_iff.mp hsplit with ⟨middle, hbefore, hrest⟩ | ⟨middle, hxs', hrest⟩
  · obtain ⟨r', hr', hkind⟩ := hys middle identifier site after hrest
    refine ⟨r', ?_, hkind⟩
    rw [hbefore, List.map_append]
    exact hs.append hr'
  · cases middle with
    | nil =>
      obtain ⟨r', hr', hkind⟩ := hys [] identifier site after hrest.symm
      refine ⟨r', ?_, hkind⟩
      have hbefore : before = xs := by simpa using hxs'.symm
      rw [hbefore, ← List.append_nil xs, List.map_append]
      exact hs.append hr'
    | cons e middle =>
      obtain ⟨rfl, _⟩ := List.cons.inj hrest
      exact hxs before identifier site middle hxs'

theorem current_kind_of_kinds {r : Run} {scopes : List ScopeKind} (h : r.stack.kinds = scopes)
    (hplain : inSingletonBody scopes = false) : r.stack.current.kind ≠ .singletonBody := by
  intro hkind
  rw [← h] at hplain
  simp [inSingletonBody, Stack.kinds, Stack.frames, hkind] at hplain

end Run

namespace InStep

variable (ctx : Context) {w : Walker} {r : Run} {holder : Option Node} {n : Node}
  {statement : Bool} {rest : List Task}

/-- While a node is looked at, whatever part of what is said of it a run has heard, the kinds
    of the open frames are the scopes of the walk. -/
theorem kinds_of_heard (h : InStep w r) (hpending : w.pending = .visit holder n statement :: rest)
    (heard : List Event)
    (hheard : ∀ e ∈ heard, e ∈ eventsOf (ctx.visit w.scopes holder n statement).outputs) :
    ∃ r', r.Leads (heard.map .event) r' ∧ r'.stack.kinds = w.scopes := by
  have hplain := (ctx.quiet_visit w.scopes holder n statement).plain
  obtain ⟨r', hr', hheads⟩ := r.leads_plain_all fun e he => hplain e (hheard e he)
  refine ⟨r', hr', ?_⟩
  have hkinds := h.kinds
  rw [hpending] at hkinds
  rw [Stack.kinds_eq_map_heads, hheads, ← Stack.kinds_eq_map_heads, hkinds]
  rfl

theorem exempt (h : InStep w r) {task : Task} (hpending : w.pending = task :: rest) :
    r.Exempt (eventsOf (ctx.step w.scopes task).outputs) := by
  intro before identifier site after hsplit
  cases task with
  | visit holder n statement =>
    have hplain := (ctx.quiet_visit w.scopes holder n statement).plain
    simp only [Context.step] at hsplit
    obtain ⟨r', hr', hkinds⟩ := kinds_of_heard ctx h hpending before fun e he => by
      rw [hsplit]
      exact List.mem_append_left _ he
    have hsingle := hplain (.singletonMethod identifier site) (by rw [hsplit]; simp)
    refine ⟨r', hr', Run.current_kind_of_kinds hkinds ?_⟩
    simpa using (Bool.and_eq_true_iff.mp hsingle).2
  | openScope n kind name => cases before <;> simp [Context.step, eventsOf, Output.event?] at hsplit
  | enterScope n kind => cases before <;> simp [Context.step] at hsplit
  | closeScope at' => cases before <;> simp [Context.step, eventsOf, Output.event?] at hsplit

end InStep

theorem Event.isSited_of_isPlain {e : Event} {inSingleton : Bool}
    (h : e.isPlain inSingleton = true) : e.isSited = true := by
  cases e with
  | method identifier site => exact h
  | singletonMethod identifier site => exact (Bool.and_eq_true_iff.mp h).1
  | _ => rfl

theorem Context.sited_step (ctx : Context) (scopes : List ScopeKind) (task : Task) :
    Sited (eventsOf (ctx.step scopes task).outputs) := by
  intro e he
  cases task with
  | visit holder n statement =>
    exact Event.isSited_of_isPlain ((ctx.quiet_visit scopes holder n statement).plain e he)
  | openScope n kind name =>
    obtain rfl : e = _ := by simpa [Context.step, eventsOf, Output.event?] using he
    rfl
  | enterScope n kind => simp [Context.step] at he
  | closeScope site =>
    obtain rfl : e = _ := by simpa [Context.step, eventsOf, Output.event?] using he
    rfl

/-- All that is known of a walk after some of its tasks: a run has taken the events said so
    far, and the two are in step. -/
theorem Walker.Reached.inStep {ctx : Context} {holder : Option Node} {root : Node} {w : Walker}
    (h : Reached ctx holder root w) :
    Sited (eventsOf w.said.toList) ∧ Run.initial.Exempt (eventsOf w.said.toList) ∧
      ∃ r, Run.initial.Leads (itemsOf w.said.toList) r ∧ InStep w r := by
  induction h with
  | start =>
    refine ⟨by simp [Sited, Walker.start], ?_, Run.initial, Run.Leads.nil _, InStep.initial _ _⟩
    intro before identifier site after hsplit
    cases before <;> simp [Walker.start] at hsplit
  | @advance w _ ih =>
    obtain ⟨hsited, hexempt, r, hr, hstep⟩ := ih
    cases hpending : w.pending with
    | nil =>
      have hsame : w.advance ctx = w := by simp [Walker.advance, hpending]
      rw [hsame]
      exact ⟨hsited, hexempt, r, hr, hstep⟩
    | cons task rest =>
      obtain ⟨r', hr', hstep'⟩ := hstep.advance ctx hpending
      have hsaid : (w.advance ctx).said.toList =
          w.said.toList ++ (ctx.step w.scopes task).outputs := by
        simp [Walker.advance, hpending]
      refine ⟨?_, ?_, r', ?_, hstep'⟩
      · intro e he
        rw [hsaid, eventsOf_append] at he
        rcases List.mem_append.mp he with he | he
        · exact hsited e he
        · exact ctx.sited_step w.scopes task e he
      · rw [hsaid, eventsOf_append]
        exact hexempt.append hr (hstep.exempt ctx hpending)
      · rw [hsaid, itemsOf_append]
        exact hr.append hr'

/-- The end of a walk: it is reached, nothing is left to do, and the scopes are those of the
    start. -/
theorem Context.reached_outputs (ctx : Context) (holder : Option Node) (root : Node) :
    ∃ w r, Walker.Reached ctx holder root w ∧ w.pending = [] ∧
      w.said.toList = ctx.outputs holder root ∧
      (Session.initial.walk ctx none holder root).2.scopes = w.scopes ∧
      Run.initial.Leads (itemsOf (ctx.outputs holder root)) r ∧ InStep w r := by
  have hstart : Walker.Reached ctx holder root (.start Session.initial.scopes holder root) :=
    .start
  obtain ⟨hreached, hpending⟩ := hstart.consume
  obtain ⟨_, _, r, hr, hstep⟩ := hreached.inStep
  exact ⟨_, r, hreached, hpending, rfl, rfl, hr, hstep⟩

/-- When nothing is left to do, only the scope of the file is open. -/
theorem InStep.only_file {w : Walker} {r : Run} (h : InStep w r) (hpending : w.pending = []) :
    w.scopes = [.topLevel] ∧ r.stack.outer = [] := by
  have hkinds := h.kinds
  have hcloses := h.closes
  have hbottom := h.bottom
  rw [hpending] at hkinds hcloses
  -- there is no close left to do
  have hfile : w.scopes = [.topLevel] := by
    cases hw : w.scopes with
    | nil => simp [hw] at hcloses
    | cons kind others =>
      rw [hw] at hcloses hbottom
      have hothers : others = [] := by simpa using hcloses
      subst hothers
      simpa using hbottom
  refine ⟨hfile, ?_⟩
  have hlen := congrArg List.length hkinds
  rw [hfile] at hlen
  simpa [announced, Stack.kinds, Stack.frames] using hlen

/-- Every tree is resolved, to the same records and remarks under any label. -/
theorem Context.exists_resolveTree (ctx : Context) (holder : Option Node) (root : Node) :
    ∃ records, ∀ label, resolveTree ctx holder root label =
      .ok ⟨records, (rejectionsOf (ctx.outputs holder root)).map Rejection.diagnostic, label⟩ := by
  obtain ⟨w, r, _, hpending, _, _, hr, hstep⟩ := ctx.reached_outputs holder root
  refine ⟨r.records ++ r.stack.current.records, fun label => ?_⟩
  rw [resolveTree, resolveOutputs, items_feed,
    Run.resolve_of_leads hr (hstep.only_file hpending).2]

/-- A walk over any tree and the run that draws from it.

    The tree is resolved, and the events of the walk are properly nested and sited. Whenever
    the walk looks at a node, and whatever part of what it then says the run has heard, the
    kinds of the open frames are the scopes of the walk; so no method with a receiver of its
    own is told to a run whose innermost frame is a singleton body. In the end the walk has
    only the scope of the file. -/
theorem walk_in_step (ctx : Context) (holder : Option Node) (root : Node) :
    (∀ label, ∃ resolution, resolveTree ctx holder root label = .ok resolution) ∧
    ProperlyNested (eventsOf (ctx.outputs holder root)) ∧
    Sited (eventsOf (ctx.outputs holder root)) ∧
    (∀ w, Walker.Reached ctx holder root w →
      ∀ h n statement rest, w.pending = .visit h n statement :: rest →
      ∀ heard, heard <+: (ctx.step w.scopes (.visit h n statement)).outputs →
        ∃ r, Run.initial.Leads (itemsOf (w.said.toList ++ heard)) r ∧
          r.stack.frames.map (·.kind) = w.scopes) ∧
    (∀ before identifier site after,
      eventsOf (ctx.outputs holder root) = before ++ .singletonMethod identifier site :: after →
        ∃ r, Run.initial.Leads (before.map .event) r ∧
          r.stack.current.kind ≠ .singletonBody) ∧
    (Session.initial.walk ctx none holder root).2.scopes = [.topLevel] := by
  obtain ⟨w, r, hreached, hpending, hsaid, hscopes, hr, hstep⟩ := ctx.reached_outputs holder root
  obtain ⟨hsited, hexempt, _⟩ := hreached.inStep
  rw [hsaid] at hsited hexempt
  obtain ⟨hfile, houter⟩ := hstep.only_file hpending
  refine ⟨?_, ?_, hsited, ?_, hexempt, hscopes.trans hfile⟩
  · intro label
    obtain ⟨records, hresolved⟩ := ctx.exists_resolveTree holder root
    exact ⟨_, hresolved label⟩
  · have hdepth := Run.Leads.depthAfter_eq hr
    rw [houter] at hdepth
    exact hdepth
  · intro w' hw' h n statement rest hpending' heard hheard
    obtain ⟨_, _, r', hr', hstep'⟩ := hw'.inStep
    obtain ⟨last, hlast, hsame⟩ := hstep'.kinds_of_heard ctx hpending'
      (eventsOf heard) fun e he => (hheard.filterMap _).mem he
    refine ⟨last, ?_, hsame⟩
    rw [itemsOf_append]
    exact hr'.append hlast

end MethodVisibility
