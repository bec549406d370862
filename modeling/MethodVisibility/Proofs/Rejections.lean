/-
  Rejected directives are dropped as a whole.

  A directive reads its `Context.operands`: the arguments that are no lists and the elements of
  those that are, in document order. It is rejected for a block, for the first operand that it does
  not support, or for having none (`Context.Blames`); the reader gives the site of just that
  (`Context.blames_of_error`).

  `Standing.reached` lists the nodes to which a walk comes, in its order, each with its place and
  once. The rejections of a walk are those of the directive calls in this list
  (`Standing.rejectionsOf_told`).

  `rejected_directives_dropped`: nothing is said of a rejected call but its rejection, which comes
  before all that its children say.
-/
import Mathlib.Data.List.Nodup
import Mathlib.Data.List.Perm.Basic
import MethodVisibility.Proofs.Constructors
import MethodVisibility.Proofs.DirectiveGrammar
import MethodVisibility.Proofs.Recital

namespace MethodVisibility

/-! ## What a directive objects to -/

/-- One thing that a directive reads. -/
structure Operand where
  node : Node
  /-- Whether the node is an element of a list. -/
  nested : Bool

namespace Context

/-- What a directive reads of an argument: the elements of a list, and anything else as a whole. -/
def operandsOf (arg : Node) : List Operand :=
  if arg.isNameList then (Node.dropComments arg.namedChildren).map (⟨·, true⟩) else [⟨arg, false⟩]

/-- What a directive reads, in document order. -/
def operands (call : Node) : List Operand :=
  (arguments call).flatMap operandsOf

/-- A directive takes names everywhere, and definitions as arguments but not in lists. -/
def Supports (ctx : Context) (scopes : List ScopeKind) (o : Operand) : Prop :=
  (∃ name, ctx.Spells o.node name) ∨
    o.nested = false ∧ (o.node.kind = "method" ∨
      o.node.kind = "singleton_method" ∧ scopes.head? = some .singletonBody)

/-- The site of the first operand that is not supported. -/
inductive FirstUnsupported (ctx : Context) (scopes : List ScopeKind) : List Operand → Site → Prop
  | mk {before after : List Operand} {bad : Operand}
      (supported : ∀ o ∈ before, ctx.Supports scopes o) (unsupported : ¬ ctx.Supports scopes bad) :
      FirstUnsupported ctx scopes (before ++ bad :: after) bad.node.site

/-- Why a call is no directive, and the site of what is wrong with it. -/
inductive Blames (ctx : Context) (scopes : List ScopeKind) (call : Node) : Site → Prop
  | block (block : (call.child? "block").isSome = true) : Blames ctx scopes call call.site
  | operand {site : Site} (block : call.child? "block" = none)
      (first : ctx.FirstUnsupported scopes (operands call) site) : Blames ctx scopes call site
  | nothing (block : call.child? "block" = none) (arguments : arguments call ≠ [])
      (operands : operands call = []) : Blames ctx scopes call call.site

variable {ctx : Context} {scopes : List ScopeKind}

namespace FirstUnsupported

theorem append_left {xs : List Operand} {site : Site} (h : ctx.FirstUnsupported scopes xs site)
    (ys : List Operand) : ctx.FirstUnsupported scopes (xs ++ ys) site := by
  obtain ⟨supported, unsupported⟩ := h
  rw [List.append_assoc, List.cons_append]
  exact .mk supported unsupported

theorem append_right {xs ys : List Operand} {site : Site} (hxs : ∀ o ∈ xs, ctx.Supports scopes o)
    (h : ctx.FirstUnsupported scopes ys site) : ctx.FirstUnsupported scopes (xs ++ ys) site := by
  obtain ⟨supported, unsupported⟩ := h
  rw [← List.append_assoc]
  refine .mk (fun o ho => ?_) unsupported
  rcases List.mem_append.mp ho with ho | ho
  · exact hxs o ho
  · exact supported o ho

theorem single {o : Operand} (h : ¬ ctx.Supports scopes o) :
    ctx.FirstUnsupported scopes [o] o.node.site :=
  @mk ctx scopes [] [] o nofun h

end FirstUnsupported

/-- An objection to a name has the site of the node. -/
theorem site_of_nameOf {n : Node} {objection : Objection × Site}
    (h : ctx.nameOf n = .error objection) : objection.2 = n.site := by
  unfold nameOf at h
  repeat' split at h
  all_goals cases h
  all_goals rfl

theorem not_spells_of_error {n : Node} {objection : Objection × Site}
    (h : ctx.nameOf n = .error objection) (name : String) : ¬ ctx.Spells n name := by
  intro hspells
  rw [nameOf_eq_ok_iff.mpr hspells] at h
  cases h

theorem firstUnsupported_of_namesOf {nodes : List Node} {objection : Objection × Site}
    (h : ctx.namesOf nodes = .error objection) :
    ctx.FirstUnsupported scopes (nodes.map (⟨·, true⟩)) objection.2 := by
  induction nodes with
  | nil => cases h
  | cons n rest ih =>
    rw [namesOf_cons, Except.bind_map_eq_error_iff] at h
    rw [List.map_cons]
    rcases h with hname | ⟨name, hname, hrest⟩
    · have hbad : ¬ ctx.Supports scopes ⟨n, true⟩ := by
        rintro (⟨name, hspells⟩ | ⟨hnested, -⟩)
        · exact not_spells_of_error hname name hspells
        · cases hnested
      rw [site_of_nameOf hname]
      exact (FirstUnsupported.single hbad).append_left _
    · have hgood : ∀ o ∈ [(⟨n, true⟩ : Operand)], ctx.Supports scopes o := by
        intro o ho
        rw [List.mem_singleton.mp ho]
        exact .inl ⟨name, nameOf_eq_ok_iff.mp hname⟩
      exact FirstUnsupported.append_right hgood (ih hrest)

theorem firstUnsupported_of_argument {arg : Node} {objection : Objection × Site}
    (h : ctx.argumentTargets (inSingletonBody scopes) arg = .error objection) :
    ctx.FirstUnsupported scopes (operandsOf arg) objection.2 := by
  cases hlist : arg.isNameList with
  | true =>
    rw [argumentTargets_of_isNameList hlist, Except.map_eq_error_iff] at h
    rw [operandsOf, if_pos hlist]
    exact firstUnsupported_of_namesOf h
  | false =>
    -- what is no list is one operand, and the objection is to it
    rw [operandsOf, if_neg (by simp [hlist])]
    cases hdefinition : arg.isDefinition with
    | false =>
      have hkind : arg.kind ≠ "method" ∧ arg.kind ≠ "singleton_method" := by
        simpa [Node.isDefinition] using hdefinition
      rw [argumentTargets_of_plain hdefinition hlist, Except.map_eq_error_iff] at h
      have hbad : ¬ ctx.Supports scopes ⟨arg, false⟩ := by
        rintro (⟨name, hspells⟩ | ⟨-, hmethod | ⟨hsingleton, -⟩⟩)
        · exact not_spells_of_error h name hspells
        · exact hkind.1 hmethod
        · exact hkind.2 hsingleton
      rw [site_of_nameOf h]
      exact FirstUnsupported.single hbad
    | true =>
      -- only a definition on a receiver of its own is objected to, outside a singleton body
      have hmethod : arg.kind ≠ "method" := by
        intro hmethod
        simp [argumentTargets, hmethod] at h
      have hsingleton : arg.kind = "singleton_method" := by
        simpa [Node.isDefinition, hmethod] using hdefinition
      rw [argumentTargets, if_neg hmethod, if_pos hsingleton] at h
      split at h
      · cases h
      · next houtside =>
        cases h
        have hbad : ¬ ctx.Supports scopes ⟨arg, false⟩ := by
          rintro (⟨name, hspells⟩ | ⟨-, hkind | ⟨-, hinside⟩⟩)
          · rw [hspells.plain.1] at hdefinition
            cases hdefinition
          · exact hmethod hkind
          · exact houtside (by simp [inSingletonBody, hinside])
        exact FirstUnsupported.single hbad

theorem exists_spells_of_mem {nodes : List Node} {names : List String}
    (h : List.Forall₂ ctx.Spells nodes names) {n : Node} (hn : n ∈ nodes) :
    ∃ name, ctx.Spells n name := by
  have hall : List.Forall₂ (fun n name => (∃ name, ctx.Spells n name) ∧ ctx.Spells n name)
      nodes names := h.imp fun _ name hspells => ⟨⟨name, hspells⟩, hspells⟩
  exact ((List.forall₂_and_left _ _).mp hall).1 n hn

theorem Argument.supports {arg : Node} {targets : List Target}
    (h : ctx.Argument scopes arg targets) : ∀ o ∈ operandsOf arg, ctx.Supports scopes o := by
  have hsingle : ∀ {o : Operand}, arg.isNameList = false → ctx.Supports scopes ⟨arg, false⟩ →
      o ∈ operandsOf arg → ctx.Supports scopes o := by
    intro o hlist hsupports ho
    rw [operandsOf, if_neg (by simp [hlist]), List.mem_singleton] at ho
    rwa [ho]
  intro o ho
  cases h with
  | method kind => exact hsingle (by simp [Node.isNameList, kind]) (.inr ⟨rfl, .inl kind⟩) ho
  | singletonMethod kind inside =>
    exact hsingle (by simp [Node.isNameList, kind]) (.inr ⟨rfl, .inr ⟨kind, inside⟩⟩) ho
  | name spells => exact hsingle spells.plain.2 (.inl ⟨_, spells⟩) ho
  | list kind elements =>
    rw [operandsOf, if_pos (by simpa [Node.isNameList] using kind)] at ho
    obtain ⟨n, hn, rfl⟩ := List.mem_map.mp ho
    exact .inl (exists_spells_of_mem elements hn)

theorem Argument.operandsOf_eq_nil {arg : Node} {targets : List Target}
    (h : ctx.Argument scopes arg targets) (hnone : targets = []) : operandsOf arg = [] := by
  cases h with
  | method kind => cases hnone
  | singletonMethod kind inside => cases hnone
  | name spells => cases hnone
  | list kind elements =>
    rw [operandsOf, if_pos (by simpa [Node.isNameList] using kind)]
    rw [List.map_eq_nil_iff] at hnone ⊢
    rwa [hnone, List.forall₂_nil_right_iff] at elements

theorem firstUnsupported_of_arguments {args : List Node} {objection : Objection × Site}
    (h : ctx.argumentsTargets (inSingletonBody scopes) args = .error objection) :
    ctx.FirstUnsupported scopes (args.flatMap operandsOf) objection.2 := by
  induction args with
  | nil => cases h
  | cons arg rest ih =>
    rw [argumentsTargets_cons, Except.bind_map_eq_error_iff] at h
    rw [List.flatMap_cons]
    rcases h with harg | ⟨targets, harg, hrest⟩
    · exact (firstUnsupported_of_argument harg).append_left _
    · exact FirstUnsupported.append_right (argumentTargets_eq_ok_iff.mp harg).supports (ih hrest)

/-- Arguments that give no target leave nothing to read. -/
theorem operands_eq_nil {args : List Node}
    (h : ctx.argumentsTargets (inSingletonBody scopes) args = .ok []) :
    args.flatMap operandsOf = [] := by
  obtain ⟨found, hargs, hnone⟩ := argumentsTargets_eq_ok_iff.mp h
  rw [List.flatten_eq_nil_iff] at hnone
  clear h
  induction hargs with
  | nil => rfl
  | cons harg _ ih =>
    rw [List.flatMap_cons, harg.operandsOf_eq_nil (hnone _ List.mem_cons_self), List.nil_append]
    exact ih fun targets htargets => hnone targets (List.mem_cons_of_mem _ htargets)

theorem blames_of_targets {call : Node} {objection : Objection × Site}
    (h : ctx.targets (inSingletonBody scopes) call = .error objection) :
    ctx.Blames scopes call objection.2 := by
  cases hblock : call.child? "block" with
  | some block =>
    simp only [Context.targets, hblock] at h
    cases h
    exact .block (by rw [hblock]; rfl)
  | none =>
    rw [targets_of_block_none hblock] at h
    split at h
    · cases h
    · next hsome =>
      cases hread : ctx.argumentsTargets (inSingletonBody scopes) (arguments call) with
      | error objection' =>
        rw [hread] at h
        cases h
        exact .operand hblock (firstUnsupported_of_arguments hread)
      | ok found =>
        rw [hread] at h
        cases found with
        | nil =>
          cases h
          exact .nothing hblock (by simpa using hsome) (operands_eq_nil hread)
        | cons target rest => cases h

/-- A rejection has the level of the call, and the site of what is wrong with it. -/
theorem blames_of_error {level : Level} {call : Node} {rejection : Rejection}
    (h : ctx.directiveTargets (inSingletonBody scopes) level call = .error rejection) :
    rejection.level = level ∧ ctx.Blames scopes call rejection.site := by
  rw [directiveTargets] at h
  cases hread : ctx.targets (inSingletonBody scopes) call with
  | error objection =>
    rw [hread] at h
    cases h
    exact ⟨rfl, blames_of_targets hread⟩
  | ok targets =>
    rw [hread] at h
    cases h

end Context

/-! ## The nodes to which a walk comes -/

namespace Standing

variable (ctx : Context)

/-- The nodes to which a walk comes, in its order, with their places. -/
def reached (s : Standing) : List (Place × Standing) :=
  ([], s) :: (s.steps ctx).attach.flatMap fun ⟨(i, t), _⟩ =>
    (reached t).map fun x => (i :: x.1, x.2)
termination_by s.node.size
decreasing_by
  have hchild := (mem_steps ctx).mp ‹_›
  have := Node.size_le_of_mem (node_mem_of_child? ctx hchild)
  rw [Node.size_eq s.node]
  omega

theorem reached_eq (s : Standing) :
    s.reached ctx = ([], s) :: (s.steps ctx).flatMap fun x =>
      (x.2.reached ctx).map fun y => (x.1 :: y.1, y.2) := by
  have hsteps : (s.steps ctx).attach.flatMap (fun x =>
        (x.1.2.reached ctx).map fun y => (x.1.1 :: y.1, y.2)) =
      (s.steps ctx).flatMap fun x => (x.2.reached ctx).map fun y => (x.1 :: y.1, y.2) := by
    conv => rhs; rw [← List.attach_map_subtype_val (s.steps ctx)]
    rw [List.flatMap_map]
  conv => lhs; unfold reached
  rw [← hsteps]

/-- A node is in the list if the walk comes to its place. -/
theorem mem_reached {s v : Standing} {p : Place} :
    (p, v) ∈ s.reached ctx ↔ s.at? ctx p = some v := by
  induction p generalizing s with
  | nil =>
    rw [reached_eq, List.mem_cons, List.mem_flatMap]
    constructor
    · rintro (heq | ⟨x, -, hx⟩)
      · cases heq
        rfl
      · obtain ⟨y, -, heq⟩ := List.mem_map.mp hx
        cases heq
    · intro h
      cases h
      exact .inl rfl
  | cons i rest ih =>
    rw [reached_eq, List.mem_cons, List.mem_flatMap]
    constructor
    · rintro (heq | ⟨⟨j, t⟩, hstep, hx⟩)
      · cases heq
      · obtain ⟨⟨q, u⟩, hu, heq⟩ := List.mem_map.mp hx
        cases heq
        rw [at?, (mem_steps ctx).mp hstep]
        exact ih.mp hu
    · intro h
      obtain ⟨t, ht, hv⟩ := Option.bind_eq_some_iff.mp h
      refine .inr ⟨(i, t), (mem_steps ctx).mpr ht, ?_⟩
      exact List.mem_map.mpr ⟨(rest, v), ih.mpr hv, rfl⟩

/-- A walk comes to no child twice. -/
theorem nodup_steps (s : Standing) : ((s.steps ctx).map (·.1)).Nodup := by
  let children := s.node.children.zipIdx.filterMap fun x =>
    (s.childRole? ctx x.2 x.1).map fun role => (x.2, s.below ctx role x.1)
  have hperm : (s.steps ctx).Perm children := by
    refine (List.perm_append_comm).trans ?_
    exact List.filter_append_perm (·.2.role.isBlock) children
  have hchildren : (children.map (·.1)).Nodup := by
    have hgrow : children.Pairwise fun x y => x.1 < y.1 := by
      refine List.Pairwise.filterMap _ ?_ (pairwise_zipIdx s.node.children 0)
      intro x y hlt u hu v hv
      obtain ⟨_, -, rfl⟩ := Option.map_eq_some_iff.mp hu
      obtain ⟨_, -, rfl⟩ := Option.map_eq_some_iff.mp hv
      exact hlt
    exact hgrow.map _ fun x y hlt => Nat.ne_of_lt hlt
  exact (hperm.map (·.1)).nodup_iff.mpr hchildren

/-- A walk comes to no place twice. -/
theorem nodup_reached (s : Standing) : ((s.reached ctx).map (·.1)).Nodup := by
  induction s using Standing.induction ctx with
  | step s ih =>
    rw [reached_eq, List.map_cons, List.map_flatMap, List.nodup_cons, List.nodup_flatMap]
    refine ⟨?_, ?_, ?_⟩
    · intro hnil
      obtain ⟨x, -, hx⟩ := List.mem_flatMap.mp hnil
      simp at hx
    · rintro ⟨i, t⟩ hstep
      rw [List.map_map]
      have ht := ih i t ((mem_steps ctx).mp hstep)
      rw [← List.nodup_map_iff (List.cons_injective (a := i))] at ht
      simpa [Function.comp_def] using ht
    · have hpositions : (s.steps ctx).Pairwise fun x y => x.1 ≠ y.1 :=
        List.pairwise_map.mp (nodup_steps ctx s)
      refine hpositions.imp ?_
      intro x y hne p hx hy
      simp only [List.map_map, List.mem_map] at hx hy
      obtain ⟨u, -, rfl⟩ := hx
      obtain ⟨v, -, heq⟩ := hy
      exact hne (List.cons.inj heq).1.symm

/-! ## Rejections of a walk -/

/-- The rejection of the node, if the walk looks at it and it is a directive call that is
    rejected. -/
def rejection? (s : Standing) : Option Rejection :=
  match s.role, ctx.directive? s.node with
  | .visited _, some level =>
    match ctx.directiveTargets (inSingletonBody s.scopes) level s.node with
    | .error rejection => some rejection
    | .ok _ => none
  | _, _ => none

theorem rejection?_of_directive?_none {s : Standing} (h : ctx.directive? s.node = none) :
    s.rejection? ctx = none := by
  unfold rejection?
  split
  · next hsome => rw [h] at hsome; cases hsome
  · rfl

/-- What is said of a definition is no rejection. -/
theorem rejectionsOf_definition (inSingleton : Bool) (n : Node) :
    rejectionsOf [ctx.definition inSingleton n] = [] :=
  ctx.rejectionsOf_definitions inSingleton [.definition n]

theorem rejectionsOf_before_of_directive?_none {s : Standing} (h : ctx.directive? s.node = none) :
    rejectionsOf (s.before ctx) = [] := by
  unfold before
  split
  · rfl
  · unfold remark
    split
    · have hreading := ctx.form_reading s.holder s.node
      split
      · exact rejectionsOf_definition ctx _ _
      · next hform =>
        rw [hform] at hreading
        cases hreading with
        | directive _ _ _ hdirective => rw [h] at hdirective; cases hdirective
      · split <;> rfl
      · rfl
    · split
      · exact rejectionsOf_definition ctx _ _
      · rfl
    · rfl

/-- Of a node itself, a walk says a rejection if and only if it is a call that is rejected. -/
theorem rejectionsOf_before (s : Standing) :
    rejectionsOf (s.before ctx) = (s.rejection? ctx).toList := by
  cases hdirective : ctx.directive? s.node with
  | none =>
    rw [rejectionsOf_before_of_directive?_none ctx hdirective,
      rejection?_of_directive?_none ctx hdirective]
    rfl
  | some level =>
    have hcall := ctx.isCall_of_directive? hdirective
    have hown := ctx.ownScope?_of_isCall hcall
    have hdefinition : s.node.isDefinition = false := by
      obtain hkind | hkind | hkind := Context.kind_of_isCall hcall <;>
        simp [Node.isDefinition, hkind]
    have hform := Context.form_of_directive? hdirective s.holder
    cases hrole : s.role with
    | visited statement =>
      simp only [before, scope?, hrole, hown, remark, hform, rejection?, hdirective]
      cases ctx.directiveTargets (inSingletonBody s.scopes) level s.node <;> rfl
    | argument => simp [before, scope?, remark, rejection?, hrole, hdefinition, rejectionsOf]
    | block head => simp [before, scope?, rejection?, hrole, rejectionsOf, Output.rejection?]
    | body => simp [before, scope?, remark, rejection?, hrole, rejectionsOf]
    | arguments => simp [before, scope?, remark, rejection?, hrole, rejectionsOf]

theorem rejectionsOf_after (s : Standing) : rejectionsOf (s.after ctx) = [] := by
  unfold after
  split
  · rfl
  · unfold verdict
    split
    · split
      · split <;> rfl
      · rfl
    · rfl

/-- What is said of a node and of all below it, child by child. -/
theorem told_eq_steps (s : Standing) :
    s.told ctx = s.before ctx ++ (s.steps ctx).flatMap (fun x => x.2.told ctx) ++ s.after ctx := by
  rw [told, walk_eq]
  simp [List.map_flatMap, fromChild, told, Function.comp_def]

/-- The rejections of a walk are those of the calls to which it comes, in its order. -/
theorem rejectionsOf_told (s : Standing) :
    rejectionsOf (s.told ctx) = (s.reached ctx).filterMap fun x => x.2.rejection? ctx := by
  induction s using Standing.induction ctx with
  | step s ih =>
    have hbelow : rejectionsOf ((s.steps ctx).flatMap fun x => x.2.told ctx) =
        (s.steps ctx).flatMap fun x => (x.2.reached ctx).filterMap fun y => y.2.rejection? ctx := by
      rw [rejectionsOf, List.filterMap_flatMap]
      apply List.flatMap_congr
      intro x hx
      exact ih x.1 x.2 ((mem_steps ctx).mp hx)
    have hreached : (s.reached ctx).filterMap (fun x => x.2.rejection? ctx) =
        (s.rejection? ctx).toList ++ (s.steps ctx).flatMap fun x =>
          (x.2.reached ctx).filterMap fun y => y.2.rejection? ctx := by
      rw [reached_eq, List.filterMap_cons, List.filterMap_flatMap]
      simp only [List.filterMap_map, Function.comp_def]
      cases s.rejection? ctx <;> rfl
    rw [told_eq_steps, rejectionsOf_append, rejectionsOf_append, rejectionsOf_before,
      rejectionsOf_after, hbelow, hreached, List.append_nil]

/-- Nothing but its rejection is said of a call that is rejected. -/
theorem saidAt_of_rejection? {s v : Standing} {p : Place} {rejection : Rejection}
    (hv : s.at? ctx p = some v) (h : v.rejection? ctx = some rejection) :
    saidAt (s.walk ctx) p = [.rejected rejection] := by
  rw [saidAt_walk, hv, Option.map_some, Option.getD_some]
  unfold rejection? at h
  split at h
  · next statement level hrole hdirective =>
    have hown := ctx.ownScope?_of_isCall (ctx.isCall_of_directive? hdirective)
    have hform := Context.form_of_directive? hdirective v.holder
    split at h
    · next hread =>
      cases h
      simp [before, after, scope?, remark, verdict, hrole, hown, hform, hread]
    · cases h
  · cases h

end Standing

/-- What a walk over a tree in any session says. -/
theorem Session.said_walk (ctx : Context) (session : Session) (heads : List ScopeHead)
    (holder : Option Node) (root : Node) (h : session.scopes = heads.map (·.1)) :
    (session.walk ctx none holder root).1 =
      (⟨heads, .visited false, holder, root⟩ : Standing).told ctx := by
  have hsettles := (ctx.nodeSettles root).visit heads holder false [] #[]
  have hend := hsettles.trans (Walker.consume_of_pending_nil ctx rfl)
  rw [List.append_nil] at hend
  simp only [Session.walk, Walker.start, h]
  rw [hend]
  simp

/-- What a walk over a tree in any session rejects. -/
theorem Session.rejections_walk (ctx : Context) (session : Session) (heads : List ScopeHead)
    (holder : Option Node) (root : Node) (h : session.scopes = heads.map (·.1)) :
    (session.walk ctx none holder root).2.rejections = session.rejections ++
      ((⟨heads, .visited false, holder, root⟩ : Standing).reached ctx).filterMap fun x =>
        x.2.rejection? ctx := by
  rw [← Standing.rejectionsOf_told, ← session.said_walk ctx heads holder root h]
  rfl

/-- A call that would be a directive, and is rejected, in whatever scopes: the rejection has the
    level of the call and the site of what is wrong with it. A look at the call says the rejection
    and then what its children, looked at one after the other where no statement may stand, say in
    the same scopes. In a tree, nothing but its rejection is said of such a call. So the rejections
    of a walk are those of the calls that it comes to, in its order, as many as there are such
    calls, for it comes to no place twice. -/
theorem rejected_directives_dropped (ctx : Context) :
    (∀ (call : Node) (level : Level) (scopes : List ScopeKind) (rejection : Rejection),
      ctx.directive? call = some level →
      ctx.directiveTargets (inSingletonBody scopes) level call = .error rejection →
      rejection.level = level ∧ ctx.Blames scopes call rejection.site ∧
      ∃ below, Settles ctx scopes (visits call call.namedChildren false) below ∧
        ∀ holder statement,
          Settles ctx scopes [.visit holder call statement] (.rejected rejection :: below)) ∧
    (∀ (start v : Standing) (p : Place) (rejection : Rejection),
      start.at? ctx p = some v → v.rejection? ctx = some rejection →
      saidAt (start.walk ctx) p = [.rejected rejection]) ∧
    ∀ (session : Session) (heads : List ScopeHead) (holder : Option Node) (root : Node),
      session.scopes = heads.map (·.1) →
      let start : Standing := ⟨heads, .visited false, holder, root⟩
      let said := rejectionsOf (session.walk ctx none holder root).1
      (session.walk ctx none holder root).2.rejections = session.rejections ++ said ∧
      said = (start.reached ctx).filterMap (fun x => x.2.rejection? ctx) ∧
      said.length = (start.reached ctx).countP (fun x => (x.2.rejection? ctx).isSome) ∧
      (∀ p v, (p, v) ∈ start.reached ctx ↔ start.at? ctx p = some v) ∧
      ((start.reached ctx).map (·.1)).Nodup := by
  refine ⟨?_, ?_, ?_⟩
  · intro call level scopes rejection hdirective hread
    obtain ⟨hlevel, hblames⟩ := Context.blames_of_error hread
    have hcontainer := Context.isContainer_of_isCall (ctx.isCall_of_directive? hdirective)
    have hbelow := ctx.settles_recite.2.1 scopes call call.namedChildren false
    refine ⟨hlevel, hblames, _, hbelow, ?_⟩
    intro holder statement
    have hstep : ctx.step scopes (.visit holder call statement) =
        ⟨[.rejected rejection], scopes, visits call call.namedChildren false⟩ := by
      simp [Context.step, Context.visit, Context.form_of_directive? hdirective holder, hread,
        visitChildren, hcontainer]
    exact Settles.of_step hstep hbelow
  · intro start v p rejection hv hrejection
    exact Standing.saidAt_of_rejection? ctx hv hrejection
  · intro session heads holder root hscopes start said
    have hall : (session.walk ctx none holder root).2.rejections = session.rejections ++ said := rfl
    have hsaid : said = (start.reached ctx).filterMap fun x => x.2.rejection? ctx := by
      have hreached := session.rejections_walk ctx heads holder root hscopes
      rw [hall] at hreached
      exact List.append_cancel_left hreached
    refine ⟨hall, hsaid, ?_, ?_, Standing.nodup_reached ctx start⟩
    · rw [hsaid, List.length_filterMap_eq_countP]
    · intro p v
      exact Standing.mem_reached ctx

/-- A directive with a symbol, a definition and a list of a symbol and a string that is not
    plain. -/
def brokenCall : Node :=
  sampleNode "call" none 0 16 [
    sampleNode "identifier" (some "method") 0 7 [],
    sampleNode "argument_list" (some "arguments") 8 16 [
      sampleNode "simple_symbol" none 8 10 [],
      sampleNode "method" none 11 12 [sampleNode "identifier" (some "name") 11 12 []],
      sampleNode "array" none 13 16 [
        sampleNode "simple_symbol" none 13 14 [],
        sampleNode "string" none 15 16 [sampleNode "interpolation" none 15 16 []]]]]

/-- `brokenCall` is rejected for the string, before its definition is said. -/
theorem rejected_directives_dropped_brokenCall :
    mixedContext.directive? brokenCall = some .priv ∧
      (∃ below, Settles mixedContext [.topLevel] (visits brokenCall brokenCall.namedChildren false)
          below ∧
        Settles mixedContext [.topLevel] [.visit none brokenCall true]
          (.rejected ⟨.priv, .notPlain, ⟨1, some 1, 15⟩⟩ :: below)) ∧
      saidAt (mixedContext.placedOutputs none brokenCall) [] =
        [.rejected ⟨.priv, .notPlain, ⟨1, some 1, 15⟩⟩] ∧
      (Session.initial.walk mixedContext none none brokenCall).2.rejections =
        ((Standing.root none brokenCall).reached mixedContext).filterMap fun x =>
          x.2.rejection? mixedContext := by
  have hcall : mixedContext.directive? brokenCall = some .priv := by decide
  obtain ⟨hdropped, hplaced, hwhole⟩ := rejected_directives_dropped mixedContext
  obtain ⟨-, -, below, hbelow, hsettles⟩ := hdropped brokenCall .priv [.topLevel] _ hcall rfl
  refine ⟨hcall, ⟨below, hbelow, hsettles none true⟩, ?_, ?_⟩
  · exact hplaced (Standing.root none brokenCall) _ [] _ rfl (by decide)
  · obtain ⟨hall, hsaid, -⟩ := hwhole Session.initial [(.topLevel, none)] none brokenCall rfl
    rw [hall]
    exact hsaid

end MethodVisibility
