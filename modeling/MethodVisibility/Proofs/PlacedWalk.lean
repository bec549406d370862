/-
  The walk task by task says what the walk as a recursion says.

  `Settles ctx scopes tasks outputs`: whatever tasks come after them, and whatever was said
  before, doing `tasks` says `outputs` and leaves the scopes as they were. Tasks settle one
  after the other (`Settles.append`), and a task settles if what it brings does
  (`Settles.of_step`). A look at a node settles with what `Standing.walk` lists for it
  (`Context.settles_visited`), by induction over the tree (`Context.nodeSettles`).

  `Context.map_snd_placedOutputs`: hence the outputs of a walk are those of the recursion,
  without their places.
-/
import Mathlib.Data.List.Basic
import MethodVisibility.Proofs.InStep
import MethodVisibility.Proofs.Standing

namespace MethodVisibility

/-! ## Tasks that settle -/

/-- Doing the tasks says the outputs and leaves the scopes as they are, whatever is pending
    behind them. -/
def Settles (ctx : Context) (scopes : List ScopeKind) (tasks : List Task)
    (outputs : List Output) : Prop :=
  ∀ rest said, (Walker.mk scopes (tasks ++ rest) said).consume ctx none =
    (Walker.mk scopes rest (said ++ outputs)).consume ctx none

namespace Settles

variable {ctx : Context} {scopes : List ScopeKind}

theorem said_append (said : Array Output) (us vs : List Output) :
    said ++ us ++ vs = said ++ (us ++ vs) := by
  apply Array.toList_inj.mp
  simp

theorem nil : Settles ctx scopes [] [] := by
  intro rest said
  simp

theorem append {xs ys : List Task} {us vs : List Output} (hxs : Settles ctx scopes xs us)
    (hys : Settles ctx scopes ys vs) : Settles ctx scopes (xs ++ ys) (us ++ vs) := by
  intro rest said
  rw [List.append_assoc, hxs, hys, said_append]

/-- A task settles if the tasks that it brings do. -/
theorem of_step {task : Task} {said outputs : List Output} {next : List Task}
    (hstep : ctx.step scopes task = ⟨said, scopes, next⟩) (h : Settles ctx scopes next outputs) :
    Settles ctx scopes [task] (said ++ outputs) := by
  intro rest before
  rw [← Walker.consume_advance]
  simp only [Walker.advance, List.cons_append, List.nil_append, hstep]
  rw [h, said_append]

/-- Tasks over nodes settle if each of them does. -/
theorem map {nodes : List Node} {task : Node → Task} {told : Node → List Output}
    (h : ∀ n ∈ nodes, Settles ctx scopes [task n] (told n)) :
    Settles ctx scopes (nodes.map task) (nodes.flatMap told) := by
  induction nodes with
  | nil => exact nil
  | cons n rest ih =>
    have hrest := ih fun c hc => h c (List.mem_cons_of_mem _ hc)
    rw [List.map_cons, List.flatMap_cons]
    exact (h n List.mem_cons_self).append hrest

/-- A scope opens, what is in it settles, and it closes. -/
theorem openScope {n : Node} {kind : ScopeKind} {name : Option String} {outputs : List Output}
    (h : Settles ctx (kind :: scopes) (visits n.statementHolder n.statements true) outputs) :
    Settles ctx scopes [.openScope n kind name]
      ([.event (.openScope kind name (some n.site))] ++ outputs
        ++ [.event (.closeScope (some n.site))]) := by
  intro rest said
  rw [← Walker.consume_advance, ← Walker.consume_advance]
  simp only [Walker.advance, Context.step, List.cons_append, List.nil_append, List.append_assoc]
  rw [h, ← Walker.consume_advance]
  simp only [Walker.advance, Context.step, List.nil_append, List.tail_cons, said_append,
    List.cons_append]

end Settles

/-! ## What is said below a node -/

theorem flatMap_ite {α β : Type} (l : List α) (q : α → Bool) (f : α → List β) :
    l.flatMap (fun x => if q x then f x else []) = (l.filter q).flatMap f := by
  induction l with
  | nil => rfl
  | cons x rest ih =>
    rw [List.flatMap_cons, ih]
    cases hx : q x <;> simp [hx]

/-- Of a list with positions, only the element at one position. -/
theorem flatMap_zipIdx_single {α β : Type} (cs : List α) (i : Option Nat) (f : α → List β) :
    cs.zipIdx.flatMap (fun x => if i = some x.2 then f x.1 else []) =
      ((i.bind (cs[·]?)).map f).getD [] := by
  cases i with
  | none => simp
  | some i =>
    have hfrom : ∀ k, (cs.zipIdx k).flatMap
        (fun x => if some (i + k) = some x.2 then f x.1 else []) = (cs[i]?.map f).getD [] := by
      induction cs generalizing i with
      | nil => simp
      | cons c rest ih =>
        intro k
        rw [List.zipIdx_cons, List.flatMap_cons]
        cases i with
        | zero =>
          have hlater : (rest.zipIdx (k + 1)).flatMap
              (fun x => if some (0 + k) = some x.2 then f x.1 else []) = [] := by
            rw [List.flatMap_eq_nil_iff]
            intro x hx
            have := List.le_snd_of_mem_zipIdx hx
            rw [if_neg (by simp; omega)]
          rw [hlater]
          simp
        | succ i =>
          have hshift : i + 1 + k = i + (k + 1) := by omega
          rw [hshift, ih i (k + 1), if_neg (by simp; omega)]
          simp
    simpa using hfrom 0

namespace Standing

variable (ctx : Context)

/-- What is said of a node and of all below it. -/
def told (s : Standing) : List Output :=
  (s.walk ctx).map (·.2)

/-- What is said below the children that wait, or below those that do not. -/
def toldBelow (s : Standing) (waiting : Bool) : List Output :=
  s.gather ctx (fun _ t => t.told ctx) waiting

theorem told_eq (s : Standing) :
    s.told ctx = s.before ctx ++ (s.toldBelow ctx false ++ s.toldBelow ctx true)
      ++ s.after ctx := by
  have hchild : ∀ i (t : Standing), (fromChild i (t.walk ctx)).map (·.2) = t.told ctx := by
    intro i t
    simp [fromChild, told]
  rw [told, walk_eq]
  simp only [List.map_append, List.map_flatMap, hchild]
  rw [flatMap_steps ctx s fun _ t => t.told ctx]
  simp [toldBelow, Function.comp_def]

theorem told_of_scope?_none {s : Standing} (h : s.scope? ctx = none) :
    s.told ctx = s.remark ctx ++ (s.toldBelow ctx false ++ s.toldBelow ctx true)
      ++ s.verdict ctx := by
  rw [told_eq, before, after, h]

theorem inner_of_scope?_none {s : Standing} (h : s.scope? ctx = none) :
    s.inner ctx = s.heads := by
  simp [inner, h]

/-- If the children to which the walk comes are those that meet a condition, all of them in
    the same role, which is not that of a block. -/
theorem toldBelow_filter {s : Standing} {q : Node × Nat → Bool} {role : Role}
    (hrole : role.isBlock = false)
    (h : ∀ x ∈ s.node.children.zipIdx, s.childRole? ctx x.2 x.1 =
      if q x then some role else none) :
    s.toldBelow ctx false ++ s.toldBelow ctx true =
      ((s.node.children.zipIdx.filter q).map (·.1)).flatMap fun c =>
        (s.below ctx role c).told ctx := by
  have hfirst : s.toldBelow ctx false = s.node.children.zipIdx.flatMap fun x =>
      if q x then (s.below ctx role x.1).told ctx else [] := by
    apply List.flatMap_congr
    intro x hx
    rw [waits, atChild, h x hx]
    cases q x <;> simp [hrole]
  have hsecond : s.toldBelow ctx true = [] := by
    rw [toldBelow, gather, List.flatMap_eq_nil_iff]
    intro x hx
    rw [waits, atChild, h x hx]
    cases q x <;> simp [hrole]
  rw [hfirst, hsecond, List.append_nil, flatMap_ite, List.flatMap_map]

/-- If the walk comes to the child at one position only, and that is no block. -/
theorem toldBelow_single {s : Standing} {i : Option Nat} {role : Role}
    (hrole : role.isBlock = false)
    (h : ∀ x ∈ s.node.children.zipIdx, s.childRole? ctx x.2 x.1 =
      if i = some x.2 then some role else none) :
    s.toldBelow ctx false ++ s.toldBelow ctx true =
      ((i.bind (s.node.children[·]?)).map fun c => (s.below ctx role c).told ctx).getD [] := by
  have hq : ∀ x ∈ s.node.children.zipIdx, s.childRole? ctx x.2 x.1 =
      if (i == some x.2) = true then some role else none := by
    intro x hx
    rw [h x hx]
    simp only [beq_iff_eq]
  rw [toldBelow_filter ctx hrole hq, List.flatMap_map, ← flatMap_ite]
  simp only [beq_iff_eq]
  exact flatMap_zipIdx_single s.node.children i fun c => (s.below ctx role c).told ctx

/-- If the walk looks at children, and then goes into the one that is a block. -/
theorem toldBelow_block {s : Standing} {i : Option Nat} {head : ScopeHead}
    (h : ∀ x ∈ s.node.children.zipIdx, s.childRole? ctx x.2 x.1 =
      if i = some x.2 then some (.block head) else x.1.visitedRole? false) :
    s.toldBelow ctx false ++ s.toldBelow ctx true =
      ((s.node.children.zipIdx.filter fun x => i != some x.2 && x.1.isLookedAt).map (·.1)).flatMap
          (fun c => (s.below ctx (.visited false) c).told ctx)
        ++ ((i.bind (s.node.children[·]?)).map fun c =>
          (s.below ctx (.block head) c).told ctx).getD [] := by
  have hlooked : s.toldBelow ctx false = s.node.children.zipIdx.flatMap fun x =>
      if i != some x.2 && x.1.isLookedAt then (s.below ctx (.visited false) x.1).told ctx
      else [] := by
    apply List.flatMap_congr
    intro x hx
    rw [waits, atChild, h x hx, Node.visitedRole?]
    by_cases hi : i = some x.2
    · simp [hi, Role.isBlock]
    · cases x.1.isLookedAt <;> simp [hi, Role.isBlock]
  have hblock : s.toldBelow ctx true = s.node.children.zipIdx.flatMap fun x =>
      if i = some x.2 then (s.below ctx (.block head) x.1).told ctx else [] := by
    apply List.flatMap_congr
    intro x hx
    rw [waits, atChild, h x hx, Node.visitedRole?]
    by_cases hi : i = some x.2
    · simp [hi, Role.isBlock]
    · cases x.1.isLookedAt <;> simp [hi, Role.isBlock]
  rw [hlooked, hblock, flatMap_ite, List.flatMap_map]
  congr 1
  exact flatMap_zipIdx_single s.node.children i fun c => (s.below ctx (.block head) c).told ctx

/-- If the walk comes to no child. -/
theorem toldBelow_none {s : Standing}
    (h : ∀ x ∈ s.node.children.zipIdx, s.childRole? ctx x.2 x.1 = none) :
    s.toldBelow ctx false ++ s.toldBelow ctx true = [] := by
  have hnowhere : ∀ x ∈ s.node.children.zipIdx, s.childRole? ctx x.2 x.1 =
      if none = some x.2 then some .body else none := by simpa using h
  rw [toldBelow_single ctx rfl hnowhere]
  rfl

end Standing

/-! ## Children in the order of a walk -/

namespace Node

theorem map_fst_filter_isLookedAt (cs : List Node) :
    (cs.zipIdx.filter fun x => x.1.isLookedAt).map (·.1) = cs.filter (·.isLookedAt) := by
  conv => rhs; rw [← List.zipIdx_map_fst 0 cs]
  rw [List.filter_map]
  rfl

theorem dropComments_filter_named (cs : List Node) :
    dropComments (cs.filter (·.named)) = cs.filter (·.isLookedAt) := by
  rw [dropComments, List.filter_filter]
  apply List.filter_congr
  intro c _
  rw [isLookedAt, Bool.and_comm]

theorem dropComments_dropComments (cs : List Node) :
    dropComments (dropComments cs) = dropComments cs := by
  simp [dropComments]

/-- The statements of a scope have no comments among them. -/
theorem dropComments_statements (n : Node) : dropComments n.statements = n.statements := by
  unfold statements
  split
  · exact dropComments_dropComments _
  · rw [dropComments, List.filter_filter]
    apply List.filter_congr
    intro c _
    cases c.isComment <;> simp

/-- The children of a call that are looked at beside its block. -/
theorem dropComments_beside_block (n : Node) :
    dropComments ((without "block" n.children).filter (·.named)) =
      (n.children.zipIdx.filter fun x =>
        n.fieldIndex? "block" != some x.2 && x.1.isLookedAt).map (·.1) := by
  rw [dropComments_filter_named, without_eq, List.filter_map, List.filter_filter]
  congr 1
  apply List.filter_congr
  intro x _
  simp [Bool.and_comm]

end Node

/-! ## Accepted directives -/

namespace Context

variable (ctx : Context)

theorem definitions_append (inSingleton : Bool) (xs ys : List Target) :
    ctx.definitions inSingleton (xs ++ ys) =
      ctx.definitions inSingleton xs ++ ctx.definitions inSingleton ys := by
  simp [definitions]

theorem definitions_names (inSingleton : Bool) (names : List String) :
    ctx.definitions inSingleton (names.map .name) = [] := by
  simp [definitions]

/-- The definition among the targets of an argument is the argument. -/
theorem definitions_argument {inSingleton : Bool} {arg : Node} {targets : List Target}
    (h : ctx.argumentTargets inSingleton arg = .ok targets) :
    ctx.definitions inSingleton targets =
      if arg.isDefinition then [ctx.definition inSingleton arg] else [] := by
  unfold argumentTargets at h
  split at h
  · next hkind =>
    cases h
    simp [definitions, Node.isDefinition, hkind]
  · next hmethod =>
    split at h
    · next hkind =>
      split at h
      · cases h
        simp [definitions, Node.isDefinition, hkind]
      · cases h
    · next hsingleton =>
      have hnot : arg.isDefinition = false := by simp [Node.isDefinition, hmethod, hsingleton]
      rw [hnot]
      split at h
      · cases hnames : ctx.namesOf (Node.dropComments arg.namedChildren) with
        | error e => rw [hnames] at h; cases h
        | ok names =>
          rw [hnames] at h
          cases h
          exact ctx.definitions_names inSingleton names
      · cases hname : ctx.nameOf arg with
        | error e => rw [hname] at h; cases h
        | ok name =>
          rw [hname] at h
          cases h
          exact ctx.definitions_names inSingleton [name]

/-- The definitions among the targets of several arguments are the arguments that are
    definitions. -/
theorem definitions_arguments {inSingleton : Bool} {args : List Node} {targets : List Target}
    (h : ctx.argumentsTargets inSingleton args = .ok targets) :
    ctx.definitions inSingleton targets = args.flatMap fun arg =>
      if arg.isDefinition then [ctx.definition inSingleton arg] else [] := by
  induction args generalizing targets with
  | nil => cases h; rfl
  | cons arg rest ih =>
    rw [argumentsTargets] at h
    cases harg : ctx.argumentTargets inSingleton arg with
    | error e => rw [harg] at h; cases h
    | ok found =>
      rw [harg] at h
      cases hrest : ctx.argumentsTargets inSingleton rest with
      | error e => simp only [hrest] at h; cases h
      | ok others =>
        simp only [hrest] at h
        cases h
        rw [definitions_append, ctx.definitions_argument harg, ih hrest, List.flatMap_cons]

/-- The targets of an accepted directive are those of its arguments. -/
theorem argumentsTargets_of_directiveTargets {inSingleton : Bool} {level : Level} {n : Node}
    {targets : List Target} (h : ctx.directiveTargets inSingleton level n = .ok targets) :
    ctx.argumentsTargets inSingleton (arguments n) = .ok targets := by
  have hread : ctx.targets inSingleton n = .ok targets := by
    unfold directiveTargets at h
    cases hread : ctx.targets inSingleton n with
    | error e => rw [hread] at h; cases h
    | ok found => rw [hread] at h; cases h; rfl
  unfold Context.targets at hread
  split at hread
  · cases hread
  · split at hread
    · next hnone =>
      cases hread
      rw [hnone]
      rfl
    · split at hread
      · cases hread
      · cases hread
      · next hfound =>
        cases hread
        exact hfound

/-- What an accepted directive defines. -/
theorem definitions_targets {inSingleton : Bool} {level : Level} {n : Node}
    {targets : List Target} (h : ctx.directiveTargets inSingleton level n = .ok targets) :
    ctx.definitions inSingleton targets = (arguments n).flatMap fun arg =>
      if arg.isDefinition then [ctx.definition inSingleton arg] else [] :=
  ctx.definitions_arguments (ctx.argumentsTargets_of_directiveTargets h)

end Context

namespace Standing

variable (ctx : Context)

theorem told_argument {s : Standing} (h : s.role = .argument) :
    s.told ctx =
      if s.node.isDefinition then [ctx.definition (inSingletonBody s.scopes) s.node] else [] := by
  have hnone : s.toldBelow ctx false ++ s.toldBelow ctx true = [] :=
    toldBelow_none ctx fun x _ => by rw [childRole?, h]
  rw [told_eq, hnone]
  simp [before, after, scope?, remark, verdict, h]

theorem told_arguments {s : Standing} (h : s.role = .arguments) :
    s.told ctx = (Node.dropComments s.node.namedChildren).flatMap fun arg =>
      if arg.isDefinition then [ctx.definition (inSingletonBody s.scopes) arg] else [] := by
  have hscope : s.scope? ctx = none := by simp [scope?, h]
  have hroles : ∀ x ∈ s.node.children.zipIdx, s.childRole? ctx x.2 x.1 =
      if x.1.isLookedAt then some .argument else none :=
    fun x _ => by rw [childRole?, h]
  rw [told_eq, toldBelow_filter ctx rfl hroles, Node.map_fst_filter_isLookedAt,
    Node.namedChildren, Node.dropComments_filter_named]
  simp only [before, after, hscope, remark, verdict, h, List.nil_append, List.append_nil]
  apply List.flatMap_congr
  intro c _
  rw [told_argument ctx (by rfl)]
  simp [below, inner, scopes, hscope]

end Standing

/-! ## Every node settles -/

namespace Context

variable (ctx : Context)

/-- The tasks over a node settle with what the recursion lists for it, in each of the roles
    that a node with tasks can have. -/
structure NodeSettles (n : Node) : Prop where
  visit : ∀ heads holder statement, Settles ctx (heads.map (·.1)) [.visit holder n statement]
    ((Standing.mk heads (.visited statement) holder n).told ctx)
  openScope : ∀ heads holder kind name, Settles ctx (heads.map (·.1)) [.openScope n kind name]
    ((Standing.mk heads (.block (kind, name)) holder n).told ctx)
  body : ∀ heads holder, Settles ctx (heads.map (·.1)) (visits n n.namedChildren true)
    ((Standing.mk heads .body holder n).told ctx)

variable {ctx} {s : Standing}

theorem settles_children (ih : ∀ c ∈ s.node.children, ctx.NodeSettles c) {statement : Bool}
    (h : ∀ i c, s.childRole? ctx i c = c.visitedRole? statement) :
    Settles ctx ((s.inner ctx).map (·.1)) (visits s.node s.node.namedChildren statement)
      (s.toldBelow ctx false ++ s.toldBelow ctx true) := by
  have hroles : ∀ x ∈ s.node.children.zipIdx, s.childRole? ctx x.2 x.1 =
      if x.1.isLookedAt then some (.visited statement) else none :=
    fun x _ => h x.2 x.1
  rw [Standing.toldBelow_filter ctx rfl hroles, Node.map_fst_filter_isLookedAt, visits,
    Node.namedChildren, Node.dropComments_filter_named]
  apply Settles.map
  intro c hc
  exact (ih c (List.mem_of_mem_filter hc)).visit _ _ _

theorem settles_statements (ih : ∀ c ∈ s.node.children, ctx.NodeSettles c)
    (h : ∀ i c, s.childRole? ctx i c = s.node.statementRole? i c) :
    Settles ctx ((s.inner ctx).map (·.1)) (visits s.node.statementHolder s.node.statements true)
      (s.toldBelow ctx false ++ s.toldBelow ctx true) := by
  cases hbody : s.node.bodyIndex? with
  | some b =>
    have hroles : ∀ x ∈ s.node.children.zipIdx, s.childRole? ctx x.2 x.1 =
        if some b = some x.2 then some .body else none := by
      intro x _
      rw [h, Node.statementRole?, hbody]
      simp only [Option.some.injEq]
    obtain ⟨c, hc⟩ := Node.exists_of_bodyIndex? hbody
    have hfound : s.node.body? = some c := by
      rw [Node.body?_eq_bind, hbody]
      exact hc
    rw [Standing.toldBelow_single ctx rfl hroles]
    simp only [Option.bind_some, hc, Option.map_some, Option.getD_some]
    have hstatements : visits s.node.statementHolder s.node.statements true =
        visits c c.namedChildren true := by
      simp only [visits, Node.statementHolder, Node.statements, hfound, Option.getD_some,
        Node.dropComments_dropComments]
    rw [hstatements]
    exact (ih c (List.mem_of_getElem? hc)).body _ _
  | none =>
    have hnone : s.node.body? = none := by
      rw [Node.body?_eq_bind, hbody]
      rfl
    have hroles : ∀ x ∈ s.node.children.zipIdx, s.childRole? ctx x.2 x.1 =
        if s.node.isStatement x.2 x.1 then some (.visited true) else none := by
      intro x _
      rw [h, Node.statementRole?, hbody]
    rw [Standing.toldBelow_filter ctx rfl hroles, Node.map_fst_filter_isStatement hnone, visits,
      Node.dropComments_statements, Node.statementHolder, hnone]
    apply Settles.map
    intro c hc
    rw [← Node.map_fst_filter_isStatement hnone] at hc
    obtain ⟨x, hx, rfl⟩ := List.mem_map.mp hc
    have hchild := List.fst_mem_of_mem_zipIdx (List.mem_of_mem_filter hx)
    exact (ih x.1 hchild).visit _ _ _

/-- A node that is a scope settles if its statements do. -/
theorem settles_scope (ih : ∀ c ∈ s.node.children, ctx.NodeSettles c) {kind : ScopeKind}
    {name : Option String} (hscope : s.scope? ctx = some (kind, name))
    (h : ∀ i c, s.childRole? ctx i c = s.node.statementRole? i c) :
    Settles ctx s.scopes [.openScope s.node kind name] (s.told ctx) := by
  have hinner : (s.inner ctx).map (·.1) = kind :: s.scopes := by
    simp [Standing.inner, hscope, Standing.scopes]
  have hstatements := settles_statements ih h
  rw [hinner] at hstatements
  rw [Standing.told_eq, Standing.before, Standing.after, hscope]
  exact Settles.openScope hstatements

/-- A directive settles: one that is rejected with its children, one that is accepted with
    the definitions among its arguments. -/
theorem settles_directive (ih : ∀ c ∈ s.node.children, ctx.NodeSettles c) {statement : Bool}
    (hrole : s.role = .visited statement) {level : Level}
    (hform : ctx.form s.holder s.node = .directive level) (hscope : s.scope? ctx = none)
    (hroles : ∀ i c, s.childRole? ctx i c =
      if s.accepts ctx level then
        if s.node.fieldIndex? "arguments" = some i then some .arguments else none
      else c.visitedRole? s.node.isContainer) :
    Settles ctx s.scopes [.visit s.holder s.node statement] (s.told ctx) := by
  rw [Standing.told_of_scope?_none ctx hscope]
  simp only [Standing.remark, Standing.verdict, hrole, hform]
  cases htargets : ctx.directiveTargets (inSingletonBody s.scopes) level s.node with
  | error rejection =>
    have hstep : ctx.step s.scopes (.visit s.holder s.node statement) =
        ⟨[.rejected rejection], s.scopes, visitChildren s.node⟩ := by
      simp [step, visit, hform, htargets]
    have hchildren : ∀ i c, s.childRole? ctx i c = c.visitedRole? s.node.isContainer := by
      intro i c
      simp [hroles, Standing.accepts, htargets]
    have hnext := settles_children ih hchildren
    rw [Standing.inner_of_scope?_none ctx hscope] at hnext
    rw [List.append_nil]
    exact Settles.of_step hstep hnext
  | ok targets =>
    have hstep : ctx.step s.scopes (.visit s.holder s.node statement) =
        ⟨ctx.direct (inSingletonBody s.scopes) level s.node.site targets, s.scopes, []⟩ := by
      simp [step, visit, hform, htargets]
    have hbelow : s.toldBelow ctx false ++ s.toldBelow ctx true =
        ctx.definitions (inSingletonBody s.scopes) targets := by
      have hsingle : ∀ x ∈ s.node.children.zipIdx, s.childRole? ctx x.2 x.1 =
          if s.node.fieldIndex? "arguments" = some x.2 then some .arguments else none := by
        intro x _
        simp [hroles, Standing.accepts, htargets]
      rw [Standing.toldBelow_single ctx rfl hsingle, ← Node.child?_eq_bind,
        ctx.definitions_targets htargets, arguments]
      cases s.node.child? "arguments" with
      | none => rfl
      | some list =>
        simp only [Option.map_some, Option.getD_some]
        rw [Standing.told_arguments ctx rfl]
        simp [Standing.below, Standing.scopes, Standing.inner_of_scope?_none ctx hscope]
    have hall := Settles.of_step hstep Settles.nil
    rw [hbelow]
    cases targets with
    | nil => simpa [direct, definitions] using hall
    | cons target rest => simpa [direct] using hall

/-- A call whose block is a scope settles: first what stands beside the block, then the
    block. -/
theorem settles_scopeCall (ih : ∀ c ∈ s.node.children, ctx.NodeSettles c) {statement : Bool}
    (hrole : s.role = .visited statement) {kind : ScopeKind} {name : Option String} {block : Node}
    (hform : ctx.form s.holder s.node = .scopeCall kind name block)
    (hblock : s.node.child? "block" = some block) (hscope : s.scope? ctx = none)
    (hroles : ∀ i c, s.childRole? ctx i c =
      if s.node.fieldIndex? "block" = some i then some (.block (kind, name))
      else c.visitedRole? false) :
    Settles ctx s.scopes [.visit s.holder s.node statement] (s.told ctx) := by
  have hstep : ctx.step s.scopes (.visit s.holder s.node statement) =
      ⟨[], s.scopes, visitBesideBlock s.node ++ [.openScope block kind name]⟩ := by
    simp [step, visit, hform]
  have hheads := Standing.inner_of_scope?_none ctx hscope
  rw [Standing.told_of_scope?_none ctx hscope,
    Standing.toldBelow_block ctx fun x _ => hroles x.2 x.1, ← Node.dropComments_beside_block,
    ← Node.child?_eq_bind, hblock]
  simp only [Standing.remark, Standing.verdict, hrole, hform, List.append_nil]
  refine Settles.of_step hstep (Settles.append ?_ ?_)
  · apply Settles.map
    intro c hc
    have hchild : c ∈ s.node.children := by
      rw [Node.dropComments_beside_block] at hc
      obtain ⟨x, hx, rfl⟩ := List.mem_map.mp hc
      exact List.fst_mem_of_mem_zipIdx (List.mem_of_mem_filter hx)
    rw [Standing.below, hheads]
    exact (ih c hchild).visit _ _ _
  · simp only [Option.map_some, Option.getD_some]
    rw [Standing.below, hheads]
    exact (ih block (List.mem_of_find?_eq_some hblock)).openScope _ _ _ _

/-- A look at a node settles if the tasks over its children do. -/
theorem settles_visited (ih : ∀ c ∈ s.node.children, ctx.NodeSettles c) {statement : Bool}
    (hrole : s.role = .visited statement) :
    Settles ctx s.scopes [.visit s.holder s.node statement] (s.told ctx) := by
  have hreading := ctx.form_reading s.holder s.node
  have hscope : s.scope? ctx = ctx.ownScope? s.node := by rw [Standing.scope?, hrole]
  have hlooked : ∀ i c, s.childRole? ctx i c = s.lookedRole? ctx i c := by
    intro i c
    rw [Standing.childRole?, hrole]
  generalize hform : ctx.form s.holder s.node = form at hreading
  cases hreading with
  | @scope kind name hown =>
    have hroles : ∀ i c, s.childRole? ctx i c = s.node.statementRole? i c := by
      intro i c
      simp [hlooked, Standing.lookedRole?, hown]
    have hstep : ctx.step s.scopes (.visit s.holder s.node statement) =
        ⟨[], s.scopes, [.openScope s.node kind name]⟩ := by
      simp [step, visit, hform]
    exact Settles.of_step hstep (settles_scope ih (hscope.trans hown) hroles)
  | definition hown hdefinition =>
    have hnone : s.toldBelow ctx false ++ s.toldBelow ctx true = [] :=
      Standing.toldBelow_none ctx fun x _ => by
        simp [hlooked, Standing.lookedRole?, hown, hdefinition]
    have hstep : ctx.step s.scopes (.visit s.holder s.node statement) =
        ⟨[ctx.definition (inSingletonBody s.scopes) s.node], s.scopes, []⟩ := by
      simp [step, visit, hform]
    rw [Standing.told_of_scope?_none ctx (hscope.trans hown), hnone]
    simp only [Standing.remark, Standing.verdict, hrole, hform]
    exact Settles.of_step hstep Settles.nil
  | directive hown hdefinition hword hdirective =>
    refine settles_directive ih hrole hform (hscope.trans hown) fun i c => ?_
    simp [hlooked, Standing.lookedRole?, Standing.freeRole?, hown, hdefinition, hword, hdirective]
  | scopeCall hown hdefinition hword hdirective hcall hblock =>
    refine settles_scopeCall ih hrole hform hblock (hscope.trans hown) fun i c => ?_
    simp [hlooked, Standing.lookedRole?, Standing.freeRole?, hown, hdefinition, hword, hdirective,
      Standing.openRole?, hcall]
  | @word level hown hdefinition hword =>
    have hnone : s.toldBelow ctx false ++ s.toldBelow ctx true = [] :=
      Standing.toldBelow_none ctx fun x _ => by
        simp [hlooked, Standing.lookedRole?, hown, hdefinition, hword]
    rw [Standing.told_of_scope?_none ctx (hscope.trans hown), hnone]
    simp only [Standing.remark, Standing.verdict, hrole, hform]
    cases level with
    | none => exact Settles.of_step (by simp [step, visit, hform]) Settles.nil
    | some level => exact Settles.of_step (by simp [step, visit, hform]) Settles.nil
  | plain hown hdefinition hword hdirective hcall =>
    have hroles : ∀ i c, s.childRole? ctx i c = c.visitedRole? s.node.isContainer := by
      intro i c
      simp [hlooked, Standing.lookedRole?, Standing.freeRole?, hown, hdefinition, hword, hdirective,
        Standing.openRole?, hcall]
    have hstep : ctx.step s.scopes (.visit s.holder s.node statement) =
        ⟨[], s.scopes, visitChildren s.node⟩ := by
      simp [step, visit, hform]
    have hnext := settles_children ih hroles
    rw [Standing.inner_of_scope?_none ctx (hscope.trans hown)] at hnext
    rw [Standing.told_of_scope?_none ctx (hscope.trans hown)]
    simp only [Standing.remark, Standing.verdict, hrole, hform, List.append_nil]
    exact Settles.of_step hstep hnext

/-- The tasks over every node settle with what the recursion lists for it. -/
theorem nodeSettles (ctx : Context) (n : Node) : ctx.NodeSettles n := by
  induction n using Node.induction with
  | step n ih =>
    -- a scope settles through its body and a call through its block, so that all three are
    -- needed of the children at once
    refine ⟨?_, ?_, ?_⟩
    · intro heads holder statement
      exact settles_visited (s := ⟨heads, .visited statement, holder, n⟩) ih rfl
    · intro heads holder kind name
      exact settles_scope (s := ⟨heads, .block (kind, name), holder, n⟩) ih rfl fun _ _ => rfl
    · intro heads holder
      have h := settles_children (s := ⟨heads, .body, holder, n⟩) ih fun _ _ => rfl
      rw [Standing.told_of_scope?_none ctx rfl]
      simpa [Standing.remark, Standing.verdict, Standing.inner, Standing.scope?] using h

/-- The outputs of a walk are those of the recursion, without their places. -/
theorem map_snd_placedOutputs (ctx : Context) (holder : Option Node) (root : Node) :
    (ctx.placedOutputs holder root).map (·.2) = ctx.outputs holder root := by
  have hsettles := (ctx.nodeSettles root).visit [(.topLevel, none)] holder false [] #[]
  have hend := hsettles.trans (Walker.consume_of_pending_nil ctx rfl)
  have hsaid : ctx.outputs holder root = (Standing.root holder root).told ctx := by
    have hlist := congrArg (fun w : Walker => w.said.toList) hend
    simp only [Array.toList_appendList, List.nil_append] at hlist
    exact hlist
  exact hsaid.symm

end Context

end MethodVisibility
