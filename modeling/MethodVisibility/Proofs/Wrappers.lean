/-
  Wrappers around statements.

  A block that is no scope leaves its statements where they stand: a walk says of a call with such
  a block what it says of the statements in it, and so of a node that holds statements
  (`Context.Wraps`). It says no more if what stands beside the statements is quiet, by which is
  meant that neither an event nor a rejection is said of it (`Context.Quiet`). A node that is quiet
  in some scopes is quiet in all (`Context.audible_recite_eq_nil`).

  `Concur` compares tasks by the events and rejections that they come to. A wrapper concurs with its
  statements (`Context.Wraps.concur`), whatever holds these then, and lists of statements concur if
  one is the other without some wrappers (`Context.concur_of_unwraps`).
-/
import Mathlib.Logic.Relation
import MethodVisibility.Proofs.Coverage
import MethodVisibility.Proofs.Recital

namespace MethodVisibility

/-! ## Events and rejections -/

/-- Whether an output is an event or a rejection. -/
def Output.isAudible : Output → Bool
  | .event _ => true
  | .rejected _ => true
  | .unnamed _ => false

/-- The events and rejections among outputs. -/
def audible (outputs : List Output) : List Output :=
  outputs.filter Output.isAudible

@[simp] theorem audible_append (xs ys : List Output) :
    audible (xs ++ ys) = audible xs ++ audible ys := by
  simp [audible]

theorem eventsOf_audible (outputs : List Output) :
    eventsOf (audible outputs) = eventsOf outputs := by
  rw [eventsOf, eventsOf, audible, List.filterMap_filter]
  apply List.filterMap_congr
  intro o _
  cases o <;> rfl

theorem rejectionsOf_audible (outputs : List Output) :
    rejectionsOf (audible outputs) = rejectionsOf outputs := by
  rw [rejectionsOf, rejectionsOf, audible, List.filterMap_filter]
  apply List.filterMap_congr
  intro o _
  cases o <;> rfl

theorem audible_eq_nil {outputs : List Output} (hevents : eventsOf outputs = [])
    (hrejections : rejectionsOf outputs = []) : audible outputs = [] := by
  rw [audible, List.filter_eq_nil_iff]
  intro o ho
  rw [eventsOf, List.filterMap_eq_nil_iff] at hevents
  rw [rejectionsOf, List.filterMap_eq_nil_iff] at hrejections
  cases o with
  | event e => cases hevents _ ho
  | rejected r => cases hrejections _ ho
  | unnamed start => simp [Output.isAudible]

/-! ## Tasks that concur -/

theorem Settles.unique {ctx : Context} {scopes : List ScopeKind} {tasks : List Task}
    {us vs : List Output} (hu : Settles ctx scopes tasks us) (hv : Settles ctx scopes tasks vs) :
    us = vs := by
  have hend := (hu [] #[]).symm.trans (hv [] #[])
  rw [Walker.consume_of_pending_nil ctx rfl, Walker.consume_of_pending_nil ctx rfl] at hend
  simpa using congrArg (fun w : Walker => w.said.toList) hend

/-- Tasks that settle with the same events and rejections, in the same order. -/
def Concur (ctx : Context) (scopes : List ScopeKind) (tasks tasks' : List Task) : Prop :=
  ∃ us vs, Settles ctx scopes tasks us ∧ Settles ctx scopes tasks' vs ∧ audible us = audible vs

namespace Concur

variable {ctx : Context} {scopes : List ScopeKind} {xs ys zs xs' ys' : List Task}

theorem nil : Concur ctx scopes [] [] :=
  ⟨[], [], .nil, .nil, rfl⟩

theorem refl {us : List Output} (h : Settles ctx scopes xs us) : Concur ctx scopes xs xs :=
  ⟨us, us, h, h, rfl⟩

theorem trans (h : Concur ctx scopes xs ys) (h' : Concur ctx scopes ys zs) :
    Concur ctx scopes xs zs := by
  obtain ⟨us, vs, hxs, hys, heq⟩ := h
  obtain ⟨vs', ws, hys', hzs, heq'⟩ := h'
  rw [hys'.unique hys] at heq'
  exact ⟨us, ws, hxs, hzs, heq.trans heq'⟩

theorem append (h : Concur ctx scopes xs xs') (h' : Concur ctx scopes ys ys') :
    Concur ctx scopes (xs ++ ys) (xs' ++ ys') := by
  obtain ⟨us, vs, hxs, hxs', heq⟩ := h
  obtain ⟨us', vs', hys, hys', heq'⟩ := h'
  exact ⟨us ++ us', vs ++ vs', hxs.append hys, hxs'.append hys', by simp [heq, heq']⟩

/-- A task that says nothing itself concurs with what the tasks that it brings concur with. -/
theorem of_step {task : Task} {next : List Task} (hstep : ctx.step scopes task = ⟨[], scopes, next⟩)
    (h : Concur ctx scopes next ys) : Concur ctx scopes [task] ys := by
  obtain ⟨us, vs, hnext, hys, heq⟩ := h
  exact ⟨us, vs, Settles.of_step hstep hnext, hys, heq⟩

end Concur

theorem visits_append (holder : Node) (xs ys : List Node) (statement : Bool) :
    visits holder (xs ++ ys) statement =
      visits holder xs statement ++ visits holder ys statement := by
  simp [visits, Node.dropComments]

theorem visits_dropComments (holder : Node) (nodes : List Node) (statement : Bool) :
    visits holder (Node.dropComments nodes) statement = visits holder nodes statement := by
  rw [visits, Node.dropComments_dropComments, visits]

namespace Context

variable {ctx : Context} {scopes : List ScopeKind}

/-- Of a holder, only the constant that it binds counts. -/
theorem form_of_boundConstant? {holder holder' : Option Node}
    (h : ctx.boundConstant? holder = ctx.boundConstant? holder') (n : Node) :
    ctx.form holder n = ctx.form holder' n := by
  simp only [form, callForm, h]

theorem concur_holder {holder holder' : Node}
    (h : ctx.boundConstant? (some holder) = ctx.boundConstant? (some holder')) (nodes : List Node)
    (statement : Bool) :
    Concur ctx scopes (visits holder nodes statement) (visits holder' nodes statement) := by
  have hsame : ctx.reciteAll scopes holder nodes statement =
      ctx.reciteAll scopes holder' nodes statement := by
    induction nodes with
    | nil => rw [reciteAll, reciteAll]
    | cons n rest ih =>
      rw [reciteAll, reciteAll, ih, recite_eq, recite_eq, form_of_boundConstant? h]
  have hsettles := ctx.settles_recite.2.1 scopes
  exact ⟨_, _, hsettles holder nodes statement, hsettles holder' nodes statement, by rw [hsame]⟩

/-! ## Quiet nodes -/

/-- In some scopes, a look at the node says neither an event nor a rejection. -/
def Quiet (ctx : Context) (n : Node) (statement : Bool) : Prop :=
  ∃ scopes holder outputs, Settles ctx scopes [.visit holder n statement] outputs ∧
    eventsOf outputs = [] ∧ rejectionsOf outputs = []

/-- A node that says nothing and brings nothing is quiet. -/
theorem quiet_of_step {n : Node} {statement : Bool}
    (h : ctx.step [.topLevel] (.visit none n statement) = ⟨[], [.topLevel], []⟩) :
    ctx.Quiet n statement := by
  have hsettles := Settles.of_step h Settles.nil
  exact ⟨[.topLevel], none, [], hsettles, rfl, rfl⟩

theorem audible_reciteScope_ne_nil (scopes : List ScopeKind) (n : Node) (kind : ScopeKind)
    (name : Option String) : audible (ctx.reciteScope scopes n kind name) ≠ [] := by
  rw [reciteScope]
  simp [audible, Output.isAudible]

theorem audible_direct_ne_nil (inSingleton : Bool) (level : Level) (site : Site)
    (targets : List Target) : audible (ctx.direct inSingleton level site targets) ≠ [] := by
  cases targets <;> simp [direct, audible, Output.isAudible]

theorem audible_definition {inSingleton : Bool} {n : Node}
    (h : audible [ctx.definition inSingleton n] = []) (inSingleton' : Bool) :
    audible [ctx.definition inSingleton' n] = [] := by
  cases hname : ctx.name? n with
  | none => simp [definition, hname, audible, Output.isAudible]
  | some identifier =>
    simp only [definition, hname] at h
    split at h <;> cases h

/-- Another holder changes the form of a node only if its block is a scope. -/
theorem form_holder (ctx : Context) (holder holder' : Option Node) (n : Node) :
    (∃ kind name block, ctx.form holder n = .scopeCall kind name block) ∨
      ctx.form holder' n = ctx.form holder n := by
  unfold form
  repeat' split
  all_goals try exact .inr rfl
  unfold callForm
  split
  · exact .inr rfl
  · split
    · exact .inl ⟨_, _, _, rfl⟩
    · exact .inr rfl

theorem audible_reciteAll_eq_nil {scopes' : List ScopeKind} {holder : Node} {nodes : List Node}
    {statement : Bool}
    (hnodes : ∀ n ∈ nodes, audible (ctx.recite scopes (some holder) n statement) = [] →
      audible (ctx.recite scopes' (some holder) n statement) = [])
    (h : audible (ctx.reciteAll scopes holder nodes statement) = []) :
    audible (ctx.reciteAll scopes' holder nodes statement) = [] := by
  induction nodes with
  | nil => simp [reciteAll, audible]
  | cons n rest ih =>
    rw [reciteAll, audible_append, List.append_eq_nil_iff] at h ⊢
    refine ⟨?_, ih (fun c hc => hnodes c (List.mem_cons_of_mem _ hc)) h.2⟩
    split
    · rfl
    · next hcomment =>
      rw [if_neg hcomment] at h
      exact hnodes n List.mem_cons_self h.1

/-- If neither an event nor a rejection is said of a node in some scopes, none is in any. -/
theorem audible_recite_eq_nil {holder : Option Node} {n : Node} {statement : Bool}
    (h : audible (ctx.recite scopes holder n statement) = []) (scopes' : List ScopeKind)
    (holder' : Option Node) : audible (ctx.recite scopes' holder' n statement) = [] := by
  induction n using Node.induction generalizing scopes scopes' holder holder' statement with
  | step n ih =>
    rw [recite_eq] at h ⊢
    rcases ctx.form_holder holder holder' n with ⟨kind, name, block, hform⟩ | hform
    · rw [hform] at h
      simp only [audible_append, List.append_eq_nil_iff] at h
      exact (audible_reciteScope_ne_nil _ _ _ _ h.2).elim
    · rw [hform]
      cases hn : ctx.form holder n with
      | scope kind name =>
        rw [hn] at h
        exact (audible_reciteScope_ne_nil _ _ _ _ h).elim
      | definition =>
        rw [hn] at h
        exact audible_definition h _
      | directive level =>
        rw [hn] at h
        simp only at h
        split at h
        · simp [audible, Output.isAudible] at h
        · exact (audible_direct_ne_nil _ _ _ _ h).elim
      | scopeCall kind name block =>
        rw [hn] at h
        simp only [audible_append, List.append_eq_nil_iff] at h
        exact (audible_reciteScope_ne_nil _ _ _ _ h.2).elim
      | word level =>
        rw [hn] at h
        cases level <;> exact h
      | plain =>
        rw [hn] at h
        refine audible_reciteAll_eq_nil (fun c hc hquiet => ?_) h
        exact ih c (List.mem_of_mem_filter hc) hquiet scopes' (some n)

theorem Quiet.concur {n : Node} {statement : Bool} (h : ctx.Quiet n statement)
    (scopes : List ScopeKind) (holder : Option Node) :
    Concur ctx scopes [.visit holder n statement] [] := by
  obtain ⟨there, holder', outputs, hsettles, hevents, hrejections⟩ := h
  have hrecited := hsettles.unique (ctx.settles_recite.1 there holder' n statement)
  have hquiet := audible_eq_nil hevents hrejections
  rw [hrecited] at hquiet
  exact ⟨_, [], ctx.settles_recite.1 scopes holder n statement, .nil,
    audible_recite_eq_nil hquiet scopes holder⟩

/-- Of nodes in a row, those that are quiet may be left out. -/
theorem concur_filter {holder : Node} {nodes : List Node} {statement : Bool} {p : Node → Bool}
    (h : ∀ n ∈ nodes, n.isComment = false → p n = false → ctx.Quiet n statement) :
    Concur ctx scopes (visits holder nodes statement)
      (visits holder (nodes.filter p) statement) := by
  induction nodes with
  | nil => exact .nil
  | cons n rest ih =>
    have hrest := ih fun c hc => h c (List.mem_cons_of_mem _ hc)
    have hhead : Concur ctx scopes (visits holder [n] statement)
        (visits holder ([n].filter p) statement) := by
      cases hp : p n with
      | true =>
        rw [List.filter_cons_of_pos hp, List.filter_nil]
        exact concur_holder rfl [n] statement
      | false =>
        rw [List.filter_cons_of_neg (by simp [hp]), List.filter_nil]
        cases hcomment : n.isComment with
        | true => simpa [visits, Node.dropComments, hcomment] using Concur.nil
        | false =>
          have hquiet := (h n List.mem_cons_self hcomment hp).concur scopes (some holder)
          simpa [visits, Node.dropComments, hcomment] using hquiet
    have hall := hhead.append hrest
    rwa [← visits_append, ← visits_append, ← List.filter_append] at hall

end Context

/-! ## Wrappers -/

/-- The named children of a block but for its parameters, comments left out. -/
def Node.inside (block : Node) : List Node :=
  (Node.dropComments block.namedChildren).filter (·.kind != "block_parameters")

namespace Context

/-- A call with a block that is neither a directive nor a scope, and beside whose statements all is
    quiet. What stands in the block is its statements, or one body that holds them. -/
structure Transparent (ctx : Context) (call block : Node) : Prop where
  isCall : call.isCall = true
  directive : ctx.directive? call = none
  scope : ctx.callScope? none call = none
  held : call.child? "block" = some block
  named : block.named = true
  isBlock : block.isBlock = true
  beside : ∀ c ∈ Node.without "block" call.children, c.named = true → c.isComment = false →
    ctx.Quiet c false
  parameters : ∀ c ∈ block.namedChildren, c.kind = "block_parameters" → ctx.Quiet c true
  statements : block.inside = block.statements ∨
    ∃ body, block.body? = some body ∧ body.isBody = true ∧ block.inside = [body]

/-- A node that is there for the sake of its statements only. -/
inductive Wraps (ctx : Context) : Node → List Node → Prop
  | container {n : Node} (kind : n.isContainer = true) :
      Wraps ctx n (Node.dropComments n.namedChildren)
  | call {call block : Node} (transparent : ctx.Transparent call block) :
      Wraps ctx call block.statements

/-- One wrapper in a list of statements gives way to its statements. -/
inductive Unwraps (ctx : Context) : List Node → List Node → Prop
  | mk (before after : List Node) {n : Node} {statements : List Node}
      (wraps : ctx.Wraps n statements) :
      Unwraps ctx (before ++ n :: after) (before ++ statements ++ after)

/-- Of a container, nothing is said but what is said of its children. -/
theorem form_of_isContainer (ctx : Context) {n : Node} (h : n.isContainer = true)
    (holder : Option Node) : ctx.form holder n = .plain := by
  simp only [Node.isContainer, List.mem_cons, List.not_mem_nil, or_false, decide_eq_true_eq] at h
  rcases h with h | h | h | h | h | h | h | h | h | h | h <;>
    simp [form, Node.isDefinition, Node.isCall, h]

theorem isComment_of_isContainer {n : Node} (h : n.isContainer = true) : n.isComment = false := by
  rw [Bool.eq_false_iff]
  intro hcomment
  have hkind : n.kind = "comment" := by simpa [Node.isComment] using hcomment
  simp [Node.isContainer, hkind] at h

theorem boundConstant?_of_isContainer (ctx : Context) {n : Node} (h : n.isContainer = true) :
    ctx.boundConstant? (some n) = none := by
  have hkind : n.kind ≠ "assignment" := by
    intro hkind
    simp [Node.isContainer, hkind] at h
  simp only [boundConstant?, if_neg hkind]

variable {ctx : Context} {scopes : List ScopeKind}

/-- A container concurs with its children, if what holds these in its place binds no constant. -/
theorem concur_container {n : Node} (h : n.isContainer = true) (holder : Option Node)
    (statement : Bool) {keeper : Node} (hkeeper : ctx.boundConstant? (some keeper) = none) :
    Concur ctx scopes [.visit holder n statement]
      (visits keeper (Node.dropComments n.namedChildren) true) := by
  have hstep : ctx.step scopes (.visit holder n statement) =
      ⟨[], scopes, visits n n.namedChildren true⟩ := by
    simp [step, visit, ctx.form_of_isContainer h, visitChildren, h]
  refine Concur.of_step hstep ?_
  rw [visits_dropComments]
  exact concur_holder ((ctx.boundConstant?_of_isContainer h).trans hkeeper.symm) _ true

namespace Transparent

variable {call block : Node}

theorem form (h : ctx.Transparent call block) (holder : Option Node) :
    ctx.form holder call = .plain := by
  have hreading := ctx.form_reading holder call
  generalize ctx.form holder call = form at hreading
  cases hreading with
  | scope own => rw [ctx.ownScope?_of_isCall h.isCall] at own; cases own
  | definition _ isDefinition =>
    obtain hkind | hkind | hkind := kind_of_isCall h.isCall <;>
      simp [Node.isDefinition, hkind] at isDefinition
  | directive _ _ _ directive => rw [h.directive] at directive; cases directive
  | scopeCall _ _ _ _ scope =>
    have hsome := ctx.isSome_callScope? holder call
    rw [scope, h.scope] at hsome
    cases hsome
  | word _ _ word =>
    obtain hkind | hkind | hkind := kind_of_isCall h.isCall <;> simp [hkind] at word
  | plain => rfl

theorem isContainer (h : ctx.Transparent call block) : block.isContainer = true := by
  have hkind : block.kind = "do_block" ∨ block.kind = "block" := by
    simpa [Node.isBlock] using h.isBlock
  rcases hkind with hkind | hkind <;> simp [Node.isContainer, hkind]

/-- The block stands between the other children of the call. -/
theorem exists_split (h : ctx.Transparent call block) :
    ∃ front back, call.children = front ++ block :: back ∧
      Node.without "block" call.children = front ++ back := by
  obtain ⟨hfield, front, back, hsplit, hfront⟩ := List.find?_eq_some_iff_append.mp h.held
  refine ⟨front, back, hsplit, ?_⟩
  rw [Node.without, hsplit, List.eraseP_append_right _ fun c hc => by simpa using hfront c hc,
    List.eraseP_cons, hfield]
  rfl

/-- Nothing of the call counts but the block. -/
theorem concur_block (h : ctx.Transparent call block) (holder : Option Node) (statement : Bool) :
    Concur ctx scopes [.visit holder call statement] [.visit (some call) block false] := by
  obtain ⟨front, back, hchildren, hbeside⟩ := h.exists_split
  have hstep : ctx.step scopes (.visit holder call statement) =
      ⟨[], scopes, visits call call.namedChildren false⟩ := by
    simp [step, visit, h.form, visitChildren, isContainer_of_isCall h.isCall]
  have hquiet : ∀ cs : List Node, (∀ c ∈ cs, c ∈ front ++ back) →
      Concur ctx scopes (visits call (cs.filter (·.named)) false) [] := by
    intro cs hcs
    have hnone : Concur ctx scopes (visits call (cs.filter (·.named)) false)
        (visits call ((cs.filter (·.named)).filter fun _ => false) false) := by
      refine concur_filter fun c hc hlooked _ => ?_
      obtain ⟨hmem, hnamed⟩ := List.mem_filter.mp hc
      exact h.beside c (hbeside ▸ hcs c hmem) hnamed hlooked
    simpa [visits, Node.dropComments] using hnone
  have hblock : visits call [block] false = [.visit (some call) block false] := by
    simp [visits, Node.dropComments, isComment_of_isContainer h.isContainer]
  have hfront := hquiet front fun c hc => List.mem_append_left _ hc
  have hmiddle := Concur.refl (ctx.settles_recite.1 scopes (some call) block false)
  have hback := hquiet back fun c hc => List.mem_append_right _ hc
  refine Concur.of_step hstep ?_
  rw [Node.namedChildren, hchildren, List.filter_append, List.filter_cons_of_pos h.named,
    List.append_cons, visits_append, visits_append, hblock]
  simpa using (hfront.append hmiddle).append hback

/-- A call with a block that is no scope concurs with the statements of the block. -/
theorem concur (h : ctx.Transparent call block) (holder : Option Node) (statement : Bool)
    {keeper : Node} (hkeeper : ctx.boundConstant? (some keeper) = none) :
    Concur ctx scopes [.visit holder call statement] (visits keeper block.statements true) := by
  have hchildren : Concur ctx scopes [.visit holder call statement]
      (visits keeper (Node.dropComments block.namedChildren) true) :=
    (h.concur_block holder statement).trans
      (concur_container h.isContainer (some call) false hkeeper)
  have hinside : Concur ctx scopes (visits keeper (Node.dropComments block.namedChildren) true)
      (visits keeper block.inside true) := by
    refine concur_filter fun c hc _ hparameters => ?_
    exact h.parameters c (List.mem_of_mem_filter hc) (by simpa using hparameters)
  refine (hchildren.trans hinside).trans ?_
  rcases h.statements with hstatements | ⟨body, hbody, hkind, honly⟩
  · rw [hstatements]
    exact concur_holder rfl _ true
  · have hcontainer : body.isContainer = true := by
      have hbodyKind : body.kind = "body_statement" ∨ body.kind = "block_body" := by
        simpa [Node.isBody] using hkind
      rcases hbodyKind with hbodyKind | hbodyKind <;> simp [Node.isContainer, hbodyKind]
    have hvisit : visits keeper [body] true = [.visit (some keeper) body true] := by
      simp [visits, Node.dropComments, isComment_of_isContainer hcontainer]
    rw [honly, hvisit, Node.statements, hbody]
    exact concur_container hcontainer (some keeper) true hkeeper

end Transparent

theorem Wraps.isComment {n : Node} {statements : List Node} (h : ctx.Wraps n statements) :
    n.isComment = false := by
  cases h with
  | container kind => exact isComment_of_isContainer kind
  | call transparent =>
    obtain hkind | hkind | hkind := kind_of_isCall transparent.isCall <;>
      simp [Node.isComment, hkind]

/-- A wrapper concurs with its statements. -/
theorem Wraps.concur {n : Node} {statements : List Node} (h : ctx.Wraps n statements)
    (holder : Option Node) {keeper : Node} (hkeeper : ctx.boundConstant? (some keeper) = none) :
    Concur ctx scopes [.visit holder n true] (visits keeper statements true) := by
  cases h with
  | container kind => exact concur_container kind holder true hkeeper
  | call transparent => exact transparent.concur holder true hkeeper

/-- A wrapper among statements, and its statements in its place, whatever holds them there. -/
theorem Wraps.concur_within {n : Node} {statements : List Node} (h : ctx.Wraps n statements)
    (holder : Node) (before after : List Node) {keeper : Node}
    (hkeeper : ctx.boundConstant? (some keeper) = none) :
    Concur ctx scopes (visits holder (before ++ n :: after) true)
      (visits holder before true ++ visits keeper statements true ++ visits holder after true) := by
  have hvisit : visits holder [n] true = [.visit (some holder) n true] := by
    simp [visits, Node.dropComments, h.isComment]
  have hsame := fun nodes => Concur.refl (ctx.settles_recite.2.1 scopes holder nodes true)
  rw [List.append_cons, visits_append, visits_append, hvisit]
  exact ((hsame before).append (h.concur (some holder) hkeeper)).append (hsame after)

/-- Lists of statements concur if one is the other without some wrappers. -/
theorem concur_of_unwraps {xs ys : List Node} (h : Relation.ReflTransGen ctx.Unwraps xs ys)
    {holder keeper : Node} (hholder : ctx.boundConstant? (some holder) = none)
    (hkeeper : ctx.boundConstant? (some keeper) = none) :
    Concur ctx scopes (visits holder xs true) (visits keeper ys true) := by
  induction h with
  | refl => exact concur_holder (hholder.trans hkeeper.symm) xs true
  | @tail ys zs _ hlast ih =>
    obtain ⟨before, after, wraps⟩ := hlast
    rw [visits_append, visits_append]
    exact ih.trans (wraps.concur_within keeper before after hkeeper)

end Context

end MethodVisibility
