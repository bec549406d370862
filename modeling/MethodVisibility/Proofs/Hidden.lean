/-
  What is hidden from a walk.

  `Standing.hides` says when a node hides a child and all below it: the node is a definition
  or a word; the child is a token or a comment; the node is a scope and the child is not among
  its statements; the node is an accepted directive and the child is not its arguments, or it
  is one of these. `Standing.hidden` asks this of every node on the way to a place. It knows of
  the nodes above only what they are, and nothing of a walk (`Standing.roleBelow`).

  In a tree whose bodies, blocks and argument lists are what a parser puts there
  (`Context.Regular`), a walk comes to a child unless the child is hidden
  (`Standing.childRole?_isNone`), and in the role that the child has by the nodes above it
  (`Standing.hidden_below`).
-/
import MethodVisibility.Proofs.PlacedWalk

namespace MethodVisibility

/-! ## Regular nodes -/

/-- Whether a node is a body of statements. -/
def Node.isBody (n : Node) : Bool :=
  n.kind == "body_statement" || n.kind == "block_body"

/-- Whether a node is a block of a call. -/
def Node.isBlock (n : Node) : Bool :=
  n.kind == "do_block" || n.kind == "block"

/-- Whether the statements of a node may have a body of their own. -/
def Node.mayHaveBody (n : Node) : Bool :=
  n.kind == "class" || n.kind == "module" || n.kind == "singleton_class" || n.isBlock

/-- A node whose body, block and arguments are what a parser puts there, and whose block is
    the last child but for tokens if it is a scope. -/
structure Context.Regular (ctx : Context) (n : Node) : Prop where
  body : n.mayHaveBody = true → ∀ c ∈ n.body?, c.named = true ∧ c.isBody = true
  block : n.isCall = true → ∀ c ∈ n.child? "block", c.named = true ∧ c.isBlock = true
  arguments : n.isCall = true →
    ∀ c ∈ n.child? "arguments", c.named = true ∧ c.kind = "argument_list"
  blockLast : (ctx.callScope? none n).isSome = true → ∀ i ∈ n.fieldIndex? "block",
    ∀ x ∈ n.children.zipIdx, i < x.2 → x.1.named = false

instance (ctx : Context) (n : Node) : Decidable (ctx.Regular n) :=
  decidable_of_iff
    ((n.mayHaveBody = true → ∀ c ∈ n.body?, c.named = true ∧ c.isBody = true) ∧
      (n.isCall = true → ∀ c ∈ n.child? "block", c.named = true ∧ c.isBlock = true) ∧
      (n.isCall = true →
        ∀ c ∈ n.child? "arguments", c.named = true ∧ c.kind = "argument_list") ∧
      ((ctx.callScope? none n).isSome = true → ∀ i ∈ n.fieldIndex? "block",
        ∀ x ∈ n.children.zipIdx, i < x.2 → x.1.named = false))
    ⟨fun ⟨body, block, arguments, blockLast⟩ => ⟨body, block, arguments, blockLast⟩,
      fun h => ⟨h.body, h.block, h.arguments, h.blockLast⟩⟩

/-! ## What is hidden -/

/-- Whether the child at a position of a scope is not among its statements: it is not the
    body, or, if there is none, it is part of the header or the parameters of a block. -/
def Node.isBesideStatements (n : Node) (i : Nat) (c : Node) : Bool :=
  match n.bodyIndex? with
  | some b => b != i
  | none => n.isHeader i || c.kind == "block_parameters"

namespace Standing

variable (ctx : Context)

/-- Whether the node is a directive call that is accepted. -/
def isAccepted (s : Standing) : Bool :=
  match ctx.directive? s.node with
  | some level => s.accepts ctx level
  | none => false

/-- Whether the node is an argument of an accepted directive. -/
def isArgument (s : Standing) : Bool :=
  match s.role with
  | .argument => true
  | _ => false

/-- Whether the node hides the child `c` at position `i`, and all below it. -/
def hides (s : Standing) (i : Nat) (c : Node) : Bool :=
  (s.node.isDefinition || s.node.kind == "identifier")
    || (!c.named || c.isComment)
    || ((s.scope? ctx).isSome && s.node.isBesideStatements i c)
    || (s.isAccepted ctx && s.node.fieldIndex? "arguments" != some i || s.isArgument)

/-- The role of a child by the nodes above it: the arguments of an accepted directive, one of
    these, the block of a call that makes it a scope, or none of them. -/
def roleBelow (s : Standing) (i : Nat) : Role :=
  match s.role with
  | .arguments => .argument
  | _ =>
    if s.isAccepted ctx && s.node.fieldIndex? "arguments" == some i then .arguments
    else
      match ctx.callScope? s.holder s.node with
      | some head => if s.node.fieldIndex? "block" = some i then .block head else .visited false
      | none => .visited false

/-- Whether a node on the way to a place hides it. -/
def hidden (s : Standing) : Place → Bool
  | [] => false
  | i :: rest =>
    match s.node.children[i]? with
    | none => false
    | some c => s.hides ctx i c || (s.below ctx (s.roleBelow ctx i) c).hidden rest

/-- Whether there is a named definition at a place that is not hidden. -/
def reports (s : Standing) (p : Place) : Bool :=
  match s.node.nodeAt? p with
  | some v => v.isDefinition && (ctx.name? v).isSome && !s.hidden ctx p
  | none => false

end Standing

/-! ## The walk comes to what is not hidden -/

/-- A node can have a role in a regular tree. -/
def Role.Fits : Role → Node → Prop
  | .visited _, _ => True
  | .argument, _ => True
  | .body, n => n.isBody = true
  | .arguments, n => n.kind = "argument_list"
  | .block _, n => n.isBlock = true

/-- Whether a walk goes through a node of this role without a look at its kind. -/
def Role.isStepped : Role → Bool
  | .visited _ | .argument => false
  | .body | .arguments | .block _ => true

/-- Whether a node is of a kind that has no meaning of its own to a walk, as bodies, blocks
    and lists of arguments. -/
def Node.isNeutral (n : Node) : Bool :=
  n.isBody || n.isBlock || n.kind == "argument_list"

theorem Node.kind_of_isNeutral {n : Node} (h : n.isNeutral = true) :
    n.kind = "body_statement" ∨ n.kind = "block_body" ∨ n.kind = "do_block" ∨
      n.kind = "block" ∨ n.kind = "argument_list" := by
  simpa [isNeutral, isBody, isBlock, or_assoc] using h

theorem Node.isComment_of_isNeutral {n : Node} (h : n.isNeutral = true) :
    n.isComment = false := by
  rcases kind_of_isNeutral h with h | h | h | h | h <;> simp [isComment, h]

theorem Node.isDefinition_of_isNeutral {n : Node} (h : n.isNeutral = true) :
    n.isDefinition = false := by
  rcases kind_of_isNeutral h with h | h | h | h | h <;> simp [isDefinition, h]

namespace Context

variable (ctx : Context)

/-- A neutral node is no scope, not closed and no call. -/
theorem open_of_isNeutral {n : Node} (h : n.isNeutral = true) :
    ctx.ownScope? n = none ∧ (n.isDefinition || n.kind == "identifier") = false ∧
      n.isCall = false := by
  rcases Node.kind_of_isNeutral h with h | h | h | h | h <;>
    simp [ownScope?, Node.isDefinition, Node.isCall, h]

theorem directive?_of_not_isCall {n : Node} (h : n.isCall = false) : ctx.directive? n = none := by
  simp [directive?, h]

theorem callScope?_of_not_isCall (holder : Option Node) {n : Node} (h : n.isCall = false) :
    ctx.callScope? holder n = none := by
  simp [callScope?, h]

/-- What is known of the kind of a node that is a scope by its kind. -/
theorem kind_of_ownScope? {n : Node} {head : ScopeHead} (h : ctx.ownScope? n = some head) :
    n.mayHaveBody = true ∧ (n.isDefinition || n.kind == "identifier") = false ∧
      n.isCall = false := by
  have hkind : n.kind = "class" ∨ n.kind = "module" ∨ n.kind = "singleton_class" := by
    unfold ownScope? at h
    split at h
    · next hkind =>
      rcases (by simpa using hkind : n.kind = "class" ∨ n.kind = "module") with hkind | hkind
      · exact Or.inl hkind
      · exact Or.inr (Or.inl hkind)
    · split at h
      · next hkind => exact Or.inr (Or.inr hkind)
      · cases h
  rcases hkind with hkind | hkind | hkind <;>
    simp [Node.mayHaveBody, Node.isDefinition, Node.isCall, hkind]

theorem isCall_of_directive? {n : Node} {level : Level} (h : ctx.directive? n = some level) :
    n.isCall = true := by
  cases hcall : n.isCall with
  | true => rfl
  | false => rw [ctx.directive?_of_not_isCall hcall] at h; cases h

theorem isCall_of_callScope? {holder : Option Node} {n : Node} {head : ScopeHead}
    (h : ctx.callScope? holder n = some head) : n.isCall = true := by
  cases hcall : n.isCall with
  | true => rfl
  | false => rw [ctx.callScope?_of_not_isCall holder hcall] at h; cases h

end Context

/-- A node that the walk goes through without a look, whatever it is, is neutral. -/
theorem Role.Fits.isNeutral {role : Role} {n : Node} (h : role.Fits n)
    (hstepped : role.isStepped = true) : n.isNeutral = true := by
  cases role with
  | visited statement => cases hstepped
  | argument => cases hstepped
  | body =>
    have hbody : n.isBody = true := h
    simp [Node.isNeutral, hbody]
  | arguments =>
    have hlist : n.kind = "argument_list" := h
    simp [Node.isNeutral, hlist]
  | block head =>
    have hblock : n.isBlock = true := h
    simp [Node.isNeutral, hblock]

namespace Node

theorem isNone_visitedRole? (c : Node) (statement : Bool) :
    (c.visitedRole? statement).isNone = (!c.named || c.isComment) := by
  rw [visitedRole?, isLookedAt]
  cases c.named <;> cases c.isComment <;> rfl

/-- A walk comes to the statements of a scope. -/
theorem isNone_statementRole? {n c : Node} {i : Nat} (hc : n.children[i]? = some c)
    (hbody : ∀ b ∈ n.body?, b.named = true ∧ b.isBody = true) :
    (n.statementRole? i c).isNone = (!c.named || c.isComment || n.isBesideStatements i c) := by
  rw [statementRole?, isBesideStatements]
  cases hindex : n.bodyIndex? with
  | some b =>
    by_cases hb : b = i
    · subst hb
      have hfound : n.body? = some c := by
        rw [body?_eq_bind, hindex]
        exact hc
      obtain ⟨hnamed, hkind⟩ := hbody c hfound
      have hcomment : c.isComment = false := isComment_of_isNeutral (by simp [isNeutral, hkind])
      simp [hnamed, hcomment]
    · simp [hb]
  | none =>
    rw [isStatement, isLookedAt]
    cases c.named <;> cases c.isComment <;> cases hparameters : c.kind == "block_parameters" <;>
      cases n.isHeader i <;> simp_all [bne]

end Node

namespace Standing

variable (ctx : Context) {s : Standing}

/-- A walk comes to the children of a scope that are not hidden. -/
theorem childRole?_isNone_of_scope (hregular : ctx.Regular s.node)
    (hbody : s.node.mayHaveBody = true)
    (hopen : (s.node.isDefinition || s.node.kind == "identifier") = false)
    (hcall : s.node.isCall = false) (hscope : (s.scope? ctx).isSome = true)
    (hargument : s.isArgument = false) {i : Nat} {c : Node}
    (hc : s.node.children[i]? = some c)
    (hroles : s.childRole? ctx i c = s.node.statementRole? i c) :
    (s.childRole? ctx i c).isNone = s.hides ctx i c := by
  rw [hroles, Node.isNone_statementRole? hc (hregular.body hbody)]
  simp [hides, hopen, hscope, isAccepted, ctx.directive?_of_not_isCall hcall, hargument]

theorem isNone_freeRole? (hregular : ctx.Regular s.node) {i : Nat} {c : Node}
    (hc : s.node.children[i]? = some c) :
    (s.freeRole? ctx i c).isNone = ((!c.named || c.isComment) ||
      s.isAccepted ctx && s.node.fieldIndex? "arguments" != some i) := by
  rw [freeRole?, isAccepted]
  cases hdirective : ctx.directive? s.node with
  | some level =>
    have hcall := ctx.isCall_of_directive? hdirective
    cases haccepts : s.accepts ctx level with
    | false => simp [haccepts, Node.isNone_visitedRole?]
    | true =>
      by_cases hi : s.node.fieldIndex? "arguments" = some i
      · obtain ⟨hnamed, hkind⟩ := hregular.arguments hcall c (Node.child?_of_fieldIndex? hi hc)
        have hcomment : c.isComment = false :=
          Node.isComment_of_isNeutral (by simp [Node.isNeutral, hkind])
        simp [haccepts, hi, hnamed, hcomment]
      · simp [haccepts, hi]
  | none =>
    simp only [openRole?, Bool.false_and, Bool.or_false]
    cases hhead : ctx.callScope? s.holder s.node with
    | none => simp [Node.isNone_visitedRole?]
    | some head =>
      have hcall := ctx.isCall_of_callScope? hhead
      by_cases hi : s.node.fieldIndex? "block" = some i
      · obtain ⟨hnamed, hkind⟩ := hregular.block hcall c (Node.child?_of_fieldIndex? hi hc)
        have hcomment : c.isComment = false :=
          Node.isComment_of_isNeutral (by simp [Node.isNeutral, hkind])
        simp [hi, hnamed, hcomment]
      · simp [hi, Node.isNone_visitedRole?]

/-- A walk comes to the children that are not hidden of a node at which it looks. -/
theorem childRole?_isNone_of_visited (hregular : ctx.Regular s.node) {statement : Bool}
    (hrole : s.role = .visited statement) {i : Nat} {c : Node}
    (hc : s.node.children[i]? = some c) :
    (s.childRole? ctx i c).isNone = s.hides ctx i c := by
  have hargument : s.isArgument = false := by simp [isArgument, hrole]
  have hlooked : s.childRole? ctx i c = s.lookedRole? ctx i c := by rw [childRole?, hrole]
  cases hown : ctx.ownScope? s.node with
  | some head =>
    obtain ⟨hbody, hopen, hcall⟩ := ctx.kind_of_ownScope? hown
    exact childRole?_isNone_of_scope ctx hregular hbody hopen hcall
      (by simp [scope?, hrole, hown]) hargument hc (by simp [hlooked, lookedRole?, hown])
  | none =>
    have hscope : s.scope? ctx = none := by simp [scope?, hrole, hown]
    cases hclosed : (s.node.isDefinition || s.node.kind == "identifier") with
    | true =>
      have hnone : s.lookedRole? ctx i c = none := by
        simp only [Bool.or_eq_true, beq_iff_eq] at hclosed
        simp [lookedRole?, hown, hclosed]
      rw [hlooked, hnone, hides, hclosed]
      rfl
    | false =>
      have hfree : s.lookedRole? ctx i c = s.freeRole? ctx i c := by
        simp only [Bool.or_eq_false_iff, beq_eq_false_iff_ne] at hclosed
        simp [lookedRole?, hown, hclosed]
      rw [hlooked, hfree, isNone_freeRole? ctx hregular hc]
      simp [hides, hclosed, hscope, hargument]

/-- In a regular tree, a walk comes to a child unless the child is hidden. -/
theorem childRole?_isNone (hregular : ctx.Regular s.node) (hfits : s.role.Fits s.node) {i : Nat}
    {c : Node} (hc : s.node.children[i]? = some c) :
    (s.childRole? ctx i c).isNone = s.hides ctx i c := by
  cases hrole : s.role with
  | visited statement => exact childRole?_isNone_of_visited ctx hregular hrole hc
  | block head =>
    have hblock : s.node.isBlock = true := by simpa [hrole, Role.Fits] using hfits
    obtain ⟨_, hopen, hcall⟩ := ctx.open_of_isNeutral (hfits.isNeutral (by rw [hrole]; rfl))
    exact childRole?_isNone_of_scope ctx hregular (by simp [Node.mayHaveBody, hblock]) hopen
      hcall (by simp [scope?, hrole]) (by simp [isArgument, hrole]) hc
      (by simp [childRole?, hrole])
  | body =>
    obtain ⟨_, hopen, hcall⟩ := ctx.open_of_isNeutral (hfits.isNeutral (by rw [hrole]; rfl))
    have hdirective := ctx.directive?_of_not_isCall hcall
    simp only [childRole?, hrole, Node.isNone_visitedRole?]
    simp [hides, hopen, scope?, isAccepted, isArgument, hrole, hdirective]
  | arguments =>
    obtain ⟨_, hopen, hcall⟩ := ctx.open_of_isNeutral (hfits.isNeutral (by rw [hrole]; rfl))
    have hdirective := ctx.directive?_of_not_isCall hcall
    have hlooked : (if c.isLookedAt then some Role.argument else none).isNone =
        (!c.named || c.isComment) := by
      rw [Node.isLookedAt]
      cases c.named <;> cases c.isComment <;> rfl
    simp only [childRole?, hrole, hlooked]
    simp [hides, hopen, scope?, isAccepted, isArgument, hrole, hdirective]
  | argument => simp [childRole?, hides, isArgument, hrole]

end Standing

/-! ## The role of a child by the nodes above it -/

/-- A role as far as the nodes above decide it. -/
def Role.surface : Role → Role
  | .visited _ => .visited false
  | .body => .visited false
  | .arguments => .arguments
  | .argument => .argument
  | .block head => .block head

namespace Standing

variable (ctx : Context) {s : Standing}

theorem roleBelow_of_not_isCall (hcall : s.node.isCall = false) (hrole : s.role ≠ .arguments)
    (i : Nat) : s.roleBelow ctx i = .visited false := by
  unfold roleBelow
  split
  · next h => exact absurd h hrole
  · simp [isAccepted, ctx.directive?_of_not_isCall hcall,
      ctx.callScope?_of_not_isCall s.holder hcall]

/-- Only the block of a call is a block. -/
theorem call_of_roleBelow {i : Nat} {head : ScopeHead} (h : s.roleBelow ctx i = .block head) :
    ctx.callScope? s.holder s.node = some head ∧ s.node.fieldIndex? "block" = some i := by
  unfold roleBelow at h
  split at h
  · cases h
  · split at h
    · cases h
    · split at h
      · next found hfound =>
        split at h
        · next hi =>
          cases h
          exact ⟨hfound, hi⟩
        · cases h
      · cases h

/-- A role that suits the child at a position of a regular node: the child can have it, and it
    is the one that the nodes above give. -/
structure Suits (s : Standing) (i : Nat) (c : Node) (role : Role) : Prop where
  fits : role.Fits c
  surface : role.surface = s.roleBelow ctx i

theorem suits_of_statementRole? {i : Nat} {c : Node} {role : Role}
    (hbody : ∀ b ∈ s.node.body?, b.named = true ∧ b.isBody = true)
    (hbelow : s.roleBelow ctx i = .visited false) (hc : s.node.children[i]? = some c)
    (h : s.node.statementRole? i c = some role) : s.Suits ctx i c role := by
  unfold Node.statementRole? at h
  split at h
  · next b hindex =>
    split at h
    · next hb =>
      cases h
      subst hb
      have hfound : s.node.body? = some c := by
        rw [Node.body?_eq_bind, hindex]
        exact hc
      exact ⟨(hbody c hfound).2, hbelow.symm⟩
    · cases h
  · split at h
    · cases h
      exact ⟨True.intro, hbelow.symm⟩
    · cases h

theorem suits_of_visitedRole? {i : Nat} {c : Node} {statement : Bool} {role : Role}
    (hbelow : s.roleBelow ctx i = .visited false) (h : c.visitedRole? statement = some role) :
    s.Suits ctx i c role := by
  unfold Node.visitedRole? at h
  split at h
  · cases h
    exact ⟨True.intro, hbelow.symm⟩
  · cases h

theorem suits_of_freeRole? (hregular : ctx.Regular s.node) (hrole : s.role ≠ .arguments)
    {i : Nat} {c : Node} {role : Role} (hc : s.node.children[i]? = some c)
    (h : s.freeRole? ctx i c = some role) : s.Suits ctx i c role := by
  have hbelow : s.roleBelow ctx i =
      if s.isAccepted ctx && s.node.fieldIndex? "arguments" == some i then .arguments
      else
        match ctx.callScope? s.holder s.node with
        | some head =>
          if s.node.fieldIndex? "block" = some i then .block head else .visited false
        | none => .visited false := by
    unfold roleBelow
    split
    · next harguments => exact absurd harguments hrole
    · rfl
  unfold freeRole? at h
  cases hdirective : ctx.directive? s.node with
  | some level =>
    have hscope : ctx.callScope? s.holder s.node = none := by
      simp [Context.callScope?, hdirective]
    simp only [hdirective] at h
    cases haccepts : s.accepts ctx level with
    | true =>
      simp only [haccepts, if_true] at h
      split at h
      · next hi =>
        cases h
        have hkind := hregular.arguments (ctx.isCall_of_directive? hdirective) c
          (Node.child?_of_fieldIndex? hi hc)
        exact ⟨hkind.2, by simp [hbelow, isAccepted, hdirective, haccepts, hi, Role.surface]⟩
      · cases h
    | false =>
      simp only [haccepts] at h
      exact suits_of_visitedRole? ctx
        (by simp [hbelow, isAccepted, hdirective, haccepts, hscope]) h
  | none =>
    simp only [hdirective, openRole?] at h
    cases hscope : ctx.callScope? s.holder s.node with
    | none =>
      simp only [hscope] at h
      exact suits_of_visitedRole? ctx (by simp [hbelow, isAccepted, hdirective, hscope]) h
    | some head =>
      simp only [hscope] at h
      split at h
      · next hi =>
        cases h
        have hkind := hregular.block (ctx.isCall_of_callScope? hscope) c
          (Node.child?_of_fieldIndex? hi hc)
        exact ⟨hkind.2, by simp [hbelow, isAccepted, hdirective, hscope, hi, Role.surface]⟩
      · next hi =>
        exact suits_of_visitedRole? ctx
          (by simp [hbelow, isAccepted, hdirective, hscope, hi]) h

/-- The role in which a walk comes to a child suits it. -/
theorem suits_of_childRole? (hregular : ctx.Regular s.node) (hfits : s.role.Fits s.node)
    {i : Nat} {c : Node} {role : Role} (hc : s.node.children[i]? = some c)
    (h : s.childRole? ctx i c = some role) : s.Suits ctx i c role := by
  cases hrole : s.role with
  | visited statement =>
    have hne : s.role ≠ .arguments := by simp [hrole]
    simp only [childRole?, hrole, lookedRole?] at h
    split at h
    · next hown =>
      obtain ⟨head, hhead⟩ := Option.isSome_iff_exists.mp hown
      obtain ⟨hbody, _, hcall⟩ := ctx.kind_of_ownScope? hhead
      exact suits_of_statementRole? ctx (hregular.body hbody)
        (roleBelow_of_not_isCall ctx hcall hne i) hc h
    · split at h
      · cases h
      · exact suits_of_freeRole? ctx hregular hne hc h
  | block head =>
    have hblock : s.node.isBlock = true := by simpa [hrole, Role.Fits] using hfits
    obtain ⟨_, _, hcall⟩ := ctx.open_of_isNeutral (hfits.isNeutral (by rw [hrole]; rfl))
    simp only [childRole?, hrole] at h
    exact suits_of_statementRole? ctx (hregular.body (by simp [Node.mayHaveBody, hblock]))
      (roleBelow_of_not_isCall ctx hcall (by simp [hrole]) i) hc h
  | body =>
    obtain ⟨_, _, hcall⟩ := ctx.open_of_isNeutral (hfits.isNeutral (by rw [hrole]; rfl))
    simp only [childRole?, hrole] at h
    exact suits_of_visitedRole? ctx (roleBelow_of_not_isCall ctx hcall (by simp [hrole]) i) h
  | arguments =>
    simp only [childRole?, hrole] at h
    split at h
    · cases h
      exact ⟨True.intro, by simp [roleBelow, hrole, Role.surface]⟩
    · cases h
  | argument =>
    simp only [childRole?, hrole] at h
    cases h

/-- What is hidden from a node that fits its role does not depend on more of the role than the
    nodes above decide. -/
theorem hidden_surface (hfits : s.role.Fits s.node) (p : Place) :
    hidden ctx { s with role := s.role.surface } p = s.hidden ctx p := by
  have hscope : scope? ctx { s with role := s.role.surface } = s.scope? ctx := by
    cases hrole : s.role with
    | body =>
      obtain ⟨hown, _⟩ := ctx.open_of_isNeutral (hfits.isNeutral (by rw [hrole]; rfl))
      simp [scope?, Role.surface, hrole, hown]
    | _ => simp [scope?, Role.surface, hrole]
  have hinner : inner ctx { s with role := s.role.surface } = s.inner ctx := by
    rw [inner, inner, hscope]
  have hargument : isArgument { s with role := s.role.surface } = s.isArgument := by
    cases hrole : s.role <;> simp [isArgument, Role.surface, hrole]
  have hrole : ∀ i, roleBelow ctx { s with role := s.role.surface } i = s.roleBelow ctx i := by
    intro i
    cases hrole : s.role <;>
      simp [roleBelow, Role.surface, hrole, isAccepted, accepts, scopes]
  have hhides : ∀ i c, hides ctx { s with role := s.role.surface } i c = s.hides ctx i c := by
    intro i c
    simp [hides, hscope, hargument, isAccepted, accepts, scopes]
  -- only the first step sees the role: below it, both ways go on from the same standing
  cases p with
  | nil => rfl
  | cons i rest =>
    simp only [hidden, hhides, hrole, below, hinner]

/-- What is hidden below a child, by the role in which a walk comes to it. -/
theorem hidden_below {i : Nat} {c : Node} {role : Role} (h : s.Suits ctx i c role) (p : Place) :
    (s.below ctx (s.roleBelow ctx i) c).hidden ctx p = (s.below ctx role c).hidden ctx p := by
  rw [← h.surface]
  exact hidden_surface ctx (s := s.below ctx role c) h.fits p

end Standing

end MethodVisibility
