/-
  How a walk stands at a node, and the walk as a recursion over the tree.

  A walk does not look at every node that it passes: it goes through the body of a scope, the
  arguments of a directive it accepts and the block of a call that makes it a scope, whatever
  kind of node stands there. The `Role` of a node says which of these it is. A `Standing` is
  a node with its role, the node that holds it and the open scopes; `Standing.child?` gives
  that of a child, or none if the walk does not come to it, and `Standing.at?` that of a
  place.

  Which nodes are scopes is said here by kind (`Context.ownScope?`, `Context.callScope?`);
  `Context.form_reading` ties this to the form of a node.

  `Standing.walk` is the walk as a recursion over the tree. It lists what is said together
  with the place of the node of which it is said.
-/
import MethodVisibility.Proofs.Nesting
import MethodVisibility.Proofs.Places
import MethodVisibility.Walk

namespace MethodVisibility

namespace Context

/-! ## Scopes and directives by kind -/

/-- The scope that a node is by its own kind. -/
def ownScope? (ctx : Context) (n : Node) : Option ScopeHead :=
  if n.kind = "class" || n.kind = "module" then some (.typeBody, ctx.name? n)
  else if n.kind = "singleton_class" then some (.singletonBody, none)
  else none

/-- The level that a node sets if it is a directive call: a call without a receiver of a
    method that spells a level. -/
def directive? (ctx : Context) (n : Node) : Option Level :=
  if n.isCall && (n.child? "receiver").isNone then Level.ofWord? (ctx.callee n) else none

/-- The scope that the block of a node is, if the node is a call that makes it one. -/
def callScope? (ctx : Context) (holder : Option Node) (n : Node) : Option ScopeHead :=
  if n.isCall && (ctx.directive? n).isNone && (n.child? "block").isSome then
    match n.child? "receiver" with
    | none => if ctx.callee n ∈ ctx.scopeCalls then some (.subScope, none) else none
    | some receiver =>
      if String.join [ctx.text receiver, ".", ctx.callee n] ∈ ctx.constructorCalls then
        some (.typeBody, ctx.boundConstant? holder)
      else none
  else none

/-- What the form of a node says of its kind. -/
inductive FormReading (ctx : Context) (holder : Option Node) (n : Node) : Form → Prop
  | scope {kind : ScopeKind} {name : Option String} (own : ctx.ownScope? n = some (kind, name)) :
      FormReading ctx holder n (.scope kind name)
  | definition (own : ctx.ownScope? n = none) (isDefinition : n.isDefinition = true) :
      FormReading ctx holder n .definition
  | directive {level : Level} (own : ctx.ownScope? n = none)
      (isDefinition : n.isDefinition = false) (word : n.kind ≠ "identifier")
      (directive : ctx.directive? n = some level) : FormReading ctx holder n (.directive level)
  | scopeCall {kind : ScopeKind} {name : Option String} {block : Node}
      (own : ctx.ownScope? n = none) (isDefinition : n.isDefinition = false)
      (word : n.kind ≠ "identifier") (directive : ctx.directive? n = none)
      (call : ctx.callScope? holder n = some (kind, name))
      (held : n.child? "block" = some block) :
      FormReading ctx holder n (.scopeCall kind name block)
  | word {level : Option Level} (own : ctx.ownScope? n = none)
      (isDefinition : n.isDefinition = false) (word : n.kind = "identifier") :
      FormReading ctx holder n (.word level)
  | plain (own : ctx.ownScope? n = none) (isDefinition : n.isDefinition = false)
      (word : n.kind ≠ "identifier") (directive : ctx.directive? n = none)
      (call : ctx.callScope? holder n = none) : FormReading ctx holder n .plain

theorem kind_of_isCall {n : Node} (h : n.isCall = true) :
    n.kind = "call" ∨ n.kind = "method_call" ∨ n.kind = "command_call" := by
  simpa [Node.isCall] using h

/-- A call is no scope by its own kind. -/
theorem ownScope?_of_isCall (ctx : Context) {n : Node} (h : n.isCall = true) :
    ctx.ownScope? n = none := by
  obtain hkind | hkind | hkind := kind_of_isCall h <;> simp [ownScope?, hkind]

/-- The children of a call are no statements. -/
theorem isContainer_of_isCall {n : Node} (h : n.isCall = true) : n.isContainer = false := by
  obtain hkind | hkind | hkind := kind_of_isCall h <;> simp [Node.isContainer, hkind]

theorem callForm_reading (ctx : Context) (holder : Option Node) {n : Node}
    (hcall : n.isCall = true) : FormReading ctx holder n (ctx.callForm holder n) := by
  have hown := ctx.ownScope?_of_isCall hcall
  have hdefinition : n.isDefinition = false := by
    obtain h | h | h := kind_of_isCall hcall <;> simp [Node.isDefinition, h]
  have hword : n.kind ≠ "identifier" := by
    obtain h | h | h := kind_of_isCall hcall <;> simp [h]
  unfold callForm
  split
  · next level hreceiver hlevel =>
    exact .directive hown hdefinition hword (by simp [directive?, hcall, hreceiver, hlevel])
  · next hnot =>
    have hdirective : ctx.directive? n = none := by
      rw [directive?]
      cases hreceiver : n.child? "receiver" with
      | some receiver => simp
      | none =>
        cases hlevel : Level.ofWord? (ctx.callee n) with
        | none => simp
        | some level => exact absurd hlevel (hnot level hreceiver)
    have hscope : (n.child? "block").isSome = true →
        ctx.callScope? holder n = (ctx.blockScope? n).map fun kind =>
          (kind, if kind = .typeBody then ctx.boundConstant? holder else none) := by
      intro hblock
      rw [callScope?, if_pos (by simp [hcall, hdirective, hblock]), blockScope?]
      cases n.child? "receiver" with
      | none => by_cases h : ctx.callee n ∈ ctx.scopeCalls <;> simp [h]
      | some receiver =>
        by_cases h : String.join [ctx.text receiver, ".", ctx.callee n] ∈ ctx.constructorCalls
        · simp only [h, if_true, Option.map_some]
        · simp only [h, if_false, Option.map_none]
    split
    · next block kind hblock hkind =>
      refine .scopeCall hown hdefinition hword hdirective ?_ hblock
      rw [hscope (by simp [hblock]), hkind]
      rfl
    · next hnone =>
      refine .plain hown hdefinition hword hdirective ?_
      cases hblock : n.child? "block" with
      | none => simp [callScope?, hblock]
      | some block =>
        rw [hscope (by simp [hblock])]
        cases hkind : ctx.blockScope? n with
        | none => rfl
        | some kind => exact absurd hkind (hnone block kind hblock)

theorem form_reading (ctx : Context) (holder : Option Node) (n : Node) :
    FormReading ctx holder n (ctx.form holder n) := by
  unfold form
  split
  · next h => exact .scope (by simp only [ownScope?, h, if_true])
  · next htype =>
    split
    · next h => exact .scope (by simp [ownScope?, h])
    · next hsingleton =>
      have hown : ctx.ownScope? n = none := by simp [ownScope?, htype, hsingleton]
      split
      · next h => exact .definition hown h
      · next hdefinition =>
        have hdefinition : n.isDefinition = false := by simpa using hdefinition
        split
        · next h => exact ctx.callForm_reading holder h
        · next hcall =>
          have hdirective : ctx.directive? n = none := by simp [directive?, hcall]
          have hscope : ctx.callScope? holder n = none := by simp [callScope?, hcall]
          split
          · next h => exact .word hown hdefinition h
          · next h => exact .plain hown hdefinition h hdirective hscope

end Context

/-! ## Roles -/

/-- How a walk comes to a node. -/
inductive Role where
  /-- It is looked at; `statement` tells whether it stands where a statement may stand. -/
  | visited (statement : Bool)
  /-- Its children are the statements of a scope. -/
  | body
  /-- Its children are the arguments of an accepted directive. -/
  | arguments
  /-- It is an argument of an accepted directive. -/
  | argument
  /-- It is the block of a call, and that scope. -/
  | block (head : ScopeHead)

/-- Whether a node is the block of a call, which waits for the other children. -/
def Role.isBlock : Role → Bool
  | .block _ => true
  | _ => false

namespace Node

/-- The role of a child of a scope: if there is a body, the statements are in it. -/
def statementRole? (n : Node) (i : Nat) (c : Node) : Option Role :=
  match n.bodyIndex? with
  | some b => if b = i then some .body else none
  | none => if n.isStatement i c then some (.visited true) else none

/-- The role of a child that is looked at if it is neither token nor comment. -/
def visitedRole? (c : Node) (statement : Bool) : Option Role :=
  if c.isLookedAt then some (.visited statement) else none

end Node

/-! ## Standings -/

/-- A node as a walk comes to it: the open scopes, innermost first, the role of the node and
    the node that holds it. -/
structure Standing where
  heads : List ScopeHead
  role : Role
  holder : Option Node
  node : Node

namespace Standing

/-- How a walk over a file stands at the root. -/
def root (holder : Option Node) (n : Node) : Standing :=
  ⟨[(.topLevel, none)], .visited false, holder, n⟩

/-- The kinds of the open scopes. -/
def scopes (s : Standing) : List ScopeKind :=
  s.heads.map (·.1)

variable (ctx : Context)

/-- The scope that the node is. A node that is not looked at is none by its kind. -/
def scope? (s : Standing) : Option ScopeHead :=
  match s.role with
  | .visited _ => ctx.ownScope? s.node
  | .block head => some head
  | .body | .arguments | .argument => none

/-- The open scopes inside the node. -/
def inner (s : Standing) : List ScopeHead :=
  (s.scope? ctx).toList ++ s.heads

/-- Whether a directive call is accepted. -/
def accepts (s : Standing) (level : Level) : Bool :=
  match ctx.directiveTargets (inSingletonBody s.scopes) level s.node with
  | .ok _ => true
  | .error _ => false

/-- The role of a child of a node that is no directive: the block of a call may be a scope. -/
def openRole? (s : Standing) (i : Nat) (c : Node) : Option Role :=
  match ctx.callScope? s.holder s.node with
  | some head =>
    if s.node.fieldIndex? "block" = some i then some (.block head) else c.visitedRole? false
  | none => c.visitedRole? s.node.isContainer

/-- The role of a child of a node that may be a directive. -/
def freeRole? (s : Standing) (i : Nat) (c : Node) : Option Role :=
  match ctx.directive? s.node with
  | none => s.openRole? ctx i c
  | some level =>
    if s.accepts ctx level then
      if s.node.fieldIndex? "arguments" = some i then some .arguments else none
    else c.visitedRole? s.node.isContainer

/-- The role of a child of a node that is looked at. -/
def lookedRole? (s : Standing) (i : Nat) (c : Node) : Option Role :=
  if (ctx.ownScope? s.node).isSome then s.node.statementRole? i c
  else if s.node.isDefinition || s.node.kind = "identifier" then none
  else s.freeRole? ctx i c

/-- The role of the child `c` at position `i`, if the walk comes to it. -/
def childRole? (s : Standing) (i : Nat) (c : Node) : Option Role :=
  match s.role with
  | .visited _ => s.lookedRole? ctx i c
  | .block _ => s.node.statementRole? i c
  | .body => c.visitedRole? true
  | .arguments => if c.isLookedAt then some .argument else none
  | .argument => none

/-- How a walk stands at a child that has a role. -/
def below (s : Standing) (role : Role) (c : Node) : Standing :=
  ⟨s.inner ctx, role, some s.node, c⟩

/-- How a walk stands at the child at a position, if it comes to it. -/
def child? (s : Standing) (i : Nat) : Option Standing :=
  (s.node.children[i]?).bind fun c => (s.childRole? ctx i c).map (s.below ctx · c)

/-- How a walk stands at a place, if it comes to it. -/
def at? (s : Standing) : Place → Option Standing
  | [] => some s
  | i :: rest => (s.child? ctx i).bind (·.at? rest)

/-- The children to which a walk comes, in its order: the block of a call comes last. -/
def steps (s : Standing) : List (Nat × Standing) :=
  let reached := s.node.children.zipIdx.filterMap fun x =>
    (s.childRole? ctx x.2 x.1).map fun role => (x.2, s.below ctx role x.1)
  reached.filter (!·.2.role.isBlock) ++ reached.filter (·.2.role.isBlock)

theorem child?_eq_some {s t : Standing} {i : Nat} :
    s.child? ctx i = some t ↔ ∃ c role, s.node.children[i]? = some c ∧
      s.childRole? ctx i c = some role ∧ t = s.below ctx role c := by
  constructor
  · intro h
    obtain ⟨c, hc, h⟩ := Option.bind_eq_some_iff.mp h
    obtain ⟨role, hrole, rfl⟩ := Option.map_eq_some_iff.mp h
    exact ⟨c, role, hc, hrole, rfl⟩
  · rintro ⟨c, role, hc, hrole, rfl⟩
    simp [child?, hc, hrole]

theorem mem_steps {s t : Standing} {i : Nat} :
    (i, t) ∈ s.steps ctx ↔ s.child? ctx i = some t := by
  have hreached : (i, t) ∈ s.node.children.zipIdx.filterMap (fun x =>
      (s.childRole? ctx x.2 x.1).map fun role => (x.2, s.below ctx role x.1)) ↔
      s.child? ctx i = some t := by
    rw [child?_eq_some, List.mem_filterMap]
    constructor
    · rintro ⟨⟨c, j⟩, hmem, h⟩
      obtain ⟨role, hrole, heq⟩ := Option.map_eq_some_iff.mp h
      cases heq
      exact ⟨c, role, List.mem_zipIdx_iff_getElem?.mp hmem, hrole, rfl⟩
    · rintro ⟨c, role, hc, hrole, rfl⟩
      exact ⟨(c, i), List.mem_zipIdx_iff_getElem?.mpr hc, by simp [hrole]⟩
  rw [← hreached]
  simp only [steps, List.mem_append, List.mem_filter]
  cases t.role.isBlock <;> simp

theorem node_mem_of_child? {s t : Standing} {i : Nat} (h : s.child? ctx i = some t) :
    t.node ∈ s.node.children := by
  obtain ⟨c, role, hc, _, rfl⟩ := (child?_eq_some ctx).mp h
  exact List.mem_of_getElem? hc

/-- What a function gives for a child to which the walk comes. -/
def atChild {β : Type} (s : Standing) (f : Nat → Standing → List β) (x : Node × Nat) : List β :=
  match s.childRole? ctx x.2 x.1 with
  | some role => f x.2 (s.below ctx role x.1)
  | none => []

/-- Whether a child is a block, which waits for the other children. -/
def waits (s : Standing) (x : Node × Nat) : Bool :=
  match s.childRole? ctx x.2 x.1 with
  | some role => role.isBlock
  | none => false

/-- What a function gives for the children that wait, or for those that do not. -/
def gather {β : Type} (s : Standing) (f : Nat → Standing → List β) (waiting : Bool) : List β :=
  s.node.children.zipIdx.flatMap fun x =>
    if s.waits ctx x = waiting then s.atChild ctx f x else []

theorem flatMap_steps {β : Type} (s : Standing) (f : Nat → Standing → List β) :
    (s.steps ctx).flatMap (fun x => f x.1 x.2) =
      s.gather ctx f false ++ s.gather ctx f true := by
  have hpart : ∀ (l : List (Node × Nat)) (p : Nat × Standing → Bool) (waiting : Bool),
      (∀ x, p x = true ↔ x.2.role.isBlock = waiting) →
      ((l.filterMap fun x => (s.childRole? ctx x.2 x.1).map fun role =>
        (x.2, s.below ctx role x.1)).filter p).flatMap (fun x => f x.1 x.2) =
      l.flatMap fun x => if s.waits ctx x = waiting then s.atChild ctx f x else [] := by
    intro l p waiting hp
    induction l with
    | nil => rfl
    | cons x rest ih =>
      rw [List.filterMap_cons, List.flatMap_cons, ← ih, waits, atChild]
      cases hrole : s.childRole? ctx x.2 x.1 with
      | none => simp
      | some role =>
        have hx := hp (x.2, s.below ctx role x.1)
        by_cases hblock : role.isBlock = waiting
        · simp [hx.mpr hblock, hblock]
        · have hnot : p (x.2, s.below ctx role x.1) = false := by
            rw [Bool.eq_false_iff]
            exact fun h => hblock (hx.mp h)
          simp [hnot, hblock]
  rw [steps, List.flatMap_append, gather, gather,
    hpart _ (fun x => !x.2.role.isBlock) false (by simp),
    hpart _ (fun x => x.2.role.isBlock) true (by simp)]

/-! ## The walk as a recursion -/

/-- What is said of a node that is no scope before what is said below it. -/
def remark (s : Standing) : List Output :=
  match s.role with
  | .visited statement =>
    match ctx.form s.holder s.node with
    | .definition => [ctx.definition (inSingletonBody s.scopes) s.node]
    | .directive level =>
      match ctx.directiveTargets (inSingletonBody s.scopes) level s.node with
      | .error rejection => [.rejected rejection]
      | .ok _ => []
    | .word (some level) => if statement then [.event (.bare level (some s.node.site))] else []
    | _ => []
  | .argument =>
    if s.node.isDefinition then [ctx.definition (inSingletonBody s.scopes) s.node] else []
  | _ => []

/-- What is said of a node that is no scope after what is said below it: the event of an
    accepted directive. -/
def verdict (s : Standing) : List Output :=
  match s.role with
  | .visited _ =>
    match ctx.form s.holder s.node with
    | .directive level =>
      match ctx.directiveTargets (inSingletonBody s.scopes) level s.node with
      | .error _ => []
      | .ok [] => [.event (.bare level (some s.node.site))]
      | .ok targets => [.event (.targeted level (ctx.targetNames targets) (some s.node.site))]
    | _ => []
  | _ => []

/-- What is said of the node before what is said below it. -/
def before (s : Standing) : List Output :=
  match s.scope? ctx with
  | some head => [.event (.openScope head.1 head.2 (some s.node.site))]
  | none => s.remark ctx

/-- What is said of the node after what is said below it. -/
def after (s : Standing) : List Output :=
  match s.scope? ctx with
  | some _ => [.event (.closeScope (some s.node.site))]
  | none => s.verdict ctx

/-- What is said below a child, seen from its parent. -/
def fromChild (i : Nat) (said : List (Place × Output)) : List (Place × Output) :=
  said.map fun x => (i :: x.1, x.2)

/-- What is said of a node and of all below it, with the places of which it is said. -/
def walk (s : Standing) : List (Place × Output) :=
  (s.before ctx).map (([] : Place), ·)
    ++ (s.steps ctx).attach.flatMap (fun ⟨(i, t), _⟩ => fromChild i (walk t))
    ++ (s.after ctx).map (([] : Place), ·)
termination_by s.node.size
decreasing_by
  have hchild := (mem_steps ctx).mp ‹_›
  have := Node.size_le_of_mem (node_mem_of_child? ctx hchild)
  rw [Node.size_eq s.node]
  omega

theorem walk_eq (s : Standing) :
    s.walk ctx = (s.before ctx).map (([] : Place), ·)
      ++ (s.steps ctx).flatMap (fun x => fromChild x.1 (x.2.walk ctx))
      ++ (s.after ctx).map (([] : Place), ·) := by
  have hsteps : (s.steps ctx).attach.flatMap (fun x => fromChild x.1.1 (x.1.2.walk ctx)) =
      (s.steps ctx).flatMap fun x => fromChild x.1 (x.2.walk ctx) := by
    conv => rhs; rw [← List.attach_map_subtype_val (s.steps ctx)]
    rw [List.flatMap_map]
  conv => lhs; unfold walk
  rw [← hsteps]

/-- What holds of a standing if it holds of those of the children holds of every one. -/
theorem induction {motive : Standing → Prop}
    (step : ∀ s : Standing, (∀ i t, s.child? ctx i = some t → motive t) → motive s)
    (s : Standing) : motive s := by
  refine step s fun i t ht => ?_
  exact induction step t
termination_by s.node.size
decreasing_by
  have := Node.size_le_of_mem (node_mem_of_child? ctx ht)
  rw [Node.size_eq s.node]
  omega

end Standing

/-- All that is said of a tree, each with the place of the node of which it is said. -/
def Context.placedOutputs (ctx : Context) (holder : Option Node) (root : Node) :
    List (Place × Output) :=
  (Standing.root holder root).walk ctx

end MethodVisibility
