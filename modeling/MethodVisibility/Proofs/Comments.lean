/-
  Comments make no difference.

  `Node.prune` takes the nodes at a set of places out of a tree, with all below them, and
  leaves the labels of the others alone. `Node.FreeComments`: the nodes at these places are
  comments that no field holds and that are no part of a literal. A field would let a reader
  find a comment by its name, and every named part of a literal counts.

  A tree and what is left of it are `Trimmed`: the children are the same one by one, but for
  free comments that are gone. Whatever a walk looks up among children passes these over, so
  that trimming is a bisimulation (`Trimmed.bisimulation`).

  `comments_make_no_difference`: a walk over what is left of a tree says the same, and the
  resolutions are the same.
-/
import MethodVisibility.Proofs.Coverage
import MethodVisibility.Proofs.Lockstep
import MethodVisibility.Resolver

namespace MethodVisibility

/-! ## Pruning -/

namespace Node

mutual

/-- A tree without the nodes at the places in `gone`, and all below them. The root stays. -/
def prune (gone : Place → Bool) : Node → Node
  | .mk label children => .mk label (pruneAll gone 0 children)

/-- What pruning leaves of children, the first of which stands at position `i`. -/
def pruneAll (gone : Place → Bool) (i : Nat) : List Node → List Node
  | [] => []
  | c :: rest =>
    if gone [i] then pruneAll gone (i + 1) rest
    else prune (fun p => gone (i :: p)) c :: pruneAll gone (i + 1) rest

end

/-- The nodes at the places in `gone` are comments below the root that no field holds, and that
    stand in no literal. -/
def FreeComments (root : Node) (gone : Place → Bool) : Prop :=
  ∀ p, gone p = true → ∃ above i n c, p = above ++ [i] ∧ root.nodeAt? above = some n ∧
    n.children[i]? = some c ∧ c.isComment = true ∧ c.field = none ∧ n.isLiteral = false

end Node

/-! ## Trimmed trees -/

/-- Children that are related one by one, but for free comments that are gone. A literal loses
    none. -/
inductive Kept (R : Node → Node → Prop) : Bool → List Node → List Node → Prop
  | nil {literal : Bool} : Kept R literal [] []
  | keep {literal : Bool} {c d : Node} {cs ds : List Node} (node : R c d)
      (rest : Kept R literal cs ds) : Kept R literal (c :: cs) (d :: ds)
  | drop {c : Node} {cs ds : List Node} (comment : c.isComment = true) (free : c.field = none)
      (rest : Kept R false cs ds) : Kept R false (c :: cs) ds

/-- Trees that are the same but for free comments that are gone. -/
inductive Trimmed : Node → Node → Prop
  | node {label : Label} {cs ds : List Node}
      (children : Kept Trimmed (Node.mk label cs).isLiteral cs ds) :
      Trimmed (.mk label cs) (.mk label ds)

/-- Below a child that stays, the places are again those of free comments. -/
theorem Node.FreeComments.below {root c : Node} {gone : Place → Bool} {i : Nat}
    (h : root.FreeComments gone) (hc : root.children[i]? = some c) (hstays : gone [i] = false) :
    c.FreeComments fun p => gone (i :: p) := by
  intro p hp
  obtain ⟨above, j, n, d, hsplit, hn, hd⟩ := h (i :: p) hp
  cases above with
  | nil =>
    obtain ⟨_, rfl⟩ := List.cons.inj hsplit
    exact absurd (hstays.symm.trans hp) Bool.false_ne_true
  | cons k above =>
    obtain ⟨rfl, rfl⟩ := List.cons.inj hsplit
    rw [Node.nodeAt?_cons hc] at hn
    exact ⟨above, j, n, d, rfl, hn, hd⟩

/-- Taking out free comments trims a tree. -/
theorem trimmed_prune (root : Node) {gone : Place → Bool} (h : root.FreeComments gone) :
    Trimmed root (root.prune gone) := by
  induction root using Node.induction generalizing gone with
  | step root ih =>
    obtain ⟨label, children⟩ := root
    have hkept : ∀ (before cs : List Node), children = before ++ cs →
        Kept Trimmed (Node.mk label children).isLiteral cs
          (Node.pruneAll gone before.length cs) := by
      intro before cs
      induction cs generalizing before with
      | nil => intro _; exact .nil
      | cons c rest ihrest =>
        intro hsplit
        have hc : (Node.mk label children).children[before.length]? = some c := by
          simp [Node.children, hsplit]
        have hrest := ihrest (before ++ [c]) (by simp [hsplit])
        rw [List.length_append, List.length_singleton] at hrest
        rw [Node.pruneAll]
        cases hgone : gone [before.length] with
        | true =>
          obtain ⟨above, i, n, d, hplace, hn, hd, hcomment, hfree, hliteral⟩ := h _ hgone
          obtain ⟨rfl, rfl⟩ : above = [] ∧ i = before.length := by
            cases above with
            | nil => simpa using hplace.symm
            | cons j above => simp at hplace
          cases hn
          rw [hc] at hd
          cases hd
          rw [hliteral] at hrest ⊢
          exact .drop hcomment hfree hrest
        | false =>
          have hchild := ih c (List.mem_of_getElem? hc) (h.below hc hgone)
          exact .keep hchild hrest
    exact .node (hkept [] children rfl)

/-! ## Children of trimmed trees -/

theorem Trimmed.label_eq {n m : Node} (h : Trimmed n m) : n.label = m.label := by
  cases h with
  | node children => rfl

theorem Trimmed.children {n m : Node} (h : Trimmed n m) :
    Kept Trimmed n.isLiteral n.children m.children := by
  cases h with
  | node children => exact children

namespace Kept

variable {literal : Bool} {cs ds : List Node} {p : Node → Bool}

/-- A choice by label keeps children trimmed. -/
theorem filter (h : Kept Trimmed literal cs ds) (hp : ∀ n m, n.label = m.label → p n = p m) :
    Kept Trimmed literal (cs.filter p) (ds.filter p) := by
  induction h with
  | nil => exact .nil
  | keep node rest ih =>
    rw [List.filter_cons, List.filter_cons, hp _ _ node.label_eq]
    split
    · exact .keep node ih
    · exact ih
  | drop comment free rest ih =>
    rw [List.filter_cons]
    split
    · exact .drop comment free ih
    · exact ih

/-- Children of which none can be gone are related one by one. -/
theorem forall₂ (h : Kept Trimmed literal cs ds)
    (hall : literal = true ∨ ∀ c ∈ cs, c.isComment = false) : List.Forall₂ Trimmed cs ds := by
  induction h with
  | nil => exact .nil
  | keep node rest ih =>
    refine .cons node (ih (hall.imp id fun hall c hc => ?_))
    exact hall c (List.mem_cons_of_mem _ hc)
  | @drop c _ _ comment free rest ih =>
    have hc : c.isComment = false := by
      rcases hall with hliteral | hall
      · cases hliteral
      · exact hall c List.mem_cons_self
    exact absurd (hc.symm.trans comment) Bool.false_ne_true

/-- A choice by label that takes no comment relates children one by one. -/
theorem forall₂_filter (h : Kept Trimmed literal cs ds)
    (hp : ∀ n m, n.label = m.label → p n = p m) (hcomment : ∀ n, p n = true → n.isComment = false) :
    List.Forall₂ Trimmed (cs.filter p) (ds.filter p) :=
  (h.filter hp).forall₂ (.inr fun c hc => hcomment c (List.mem_filter.mp hc).2)

theorem forall₂_dropComments (h : Kept Trimmed literal cs ds) :
    List.Forall₂ Trimmed (Node.dropComments cs) (Node.dropComments ds) := by
  refine h.forall₂_filter (fun n m hlabel => ?_) (fun n hn => ?_)
  · rw [Node.isComment, Node.isComment, Node.kind, Node.kind, hlabel]
  · simpa using hn

/-- A search by label that finds no free comment finds trimmed nodes. -/
theorem rel_find? (h : Kept Trimmed literal cs ds) (hp : ∀ n m, n.label = m.label → p n = p m)
    (hfree : ∀ n : Node, n.isComment = true → n.field = none → p n = false) :
    Option.Rel Trimmed (cs.find? p) (ds.find? p) := by
  induction h with
  | nil => exact .none
  | @keep _ c d _ _ node rest ih =>
    rw [List.find?_cons, List.find?_cons, hp c d node.label_eq]
    cases p d with
    | true => exact .some node
    | false => exact ih
  | @drop c _ _ comment free rest ih =>
    rw [List.find?_cons, hfree c comment free]
    exact ih

/-- Leaving out the child under a field keeps children trimmed. -/
theorem without (h : Kept Trimmed literal cs ds) (field : String) :
    Kept Trimmed literal (Node.without field cs) (Node.without field ds) := by
  unfold Node.without
  induction h with
  | nil => exact .nil
  | @keep _ c d _ _ node rest ih =>
    rw [List.eraseP_cons, List.eraseP_cons, Node.field, Node.field, node.label_eq]
    cases d.label.field == some field with
    | true => exact rest
    | false => exact .keep node ih
  | drop comment free rest ih =>
    rw [List.eraseP_cons, free]
    exact .drop comment free ih

end Kept

/-! ## What a walk reads of trimmed nodes -/

namespace Trimmed

variable (ctx : Context) {n m : Node}

theorem kind_eq (h : Trimmed n m) : n.kind = m.kind := by
  rw [Node.kind, Node.kind, h.label_eq]

theorem site_eq (h : Trimmed n m) : n.site = m.site := by
  rw [Node.site, Node.site, h.label_eq]

theorem text_eq (h : Trimmed n m) : ctx.text n = ctx.text m := by
  rw [Context.text, Context.text, Source.text, Source.text, h.label_eq]

theorem namedChildren (h : Trimmed n m) :
    Kept Trimmed n.isLiteral n.namedChildren m.namedChildren := by
  refine h.children.filter fun c d hlabel => ?_
  rw [Node.named, Node.named, hlabel]

theorem rel_child? (h : Trimmed n m) (field : String) :
    Option.Rel Trimmed (n.child? field) (m.child? field) := by
  refine h.children.rel_find? (fun c d hlabel => ?_) (fun c _ hfree => ?_)
  · rw [Node.field, Node.field, hlabel]
  · rw [hfree]
    rfl

theorem rel_findKind? (h : Trimmed n m) {kind : String} (hkind : kind ≠ "comment") :
    Option.Rel Trimmed (n.findKind? kind) (m.findKind? kind) := by
  refine h.children.rel_find? (fun c d hlabel => ?_) (fun c hcomment _ => ?_)
  · rw [Node.kind, Node.kind, hlabel]
  · have hc : c.kind = "comment" := by simpa [Node.isComment] using hcomment
    rw [hc, beq_eq_false_iff_ne]
    exact hkind.symm

theorem rel_body? (h : Trimmed n m) : Option.Rel Trimmed n.body? m.body? :=
  rel_orElse (rel_orElse (h.rel_child? "body") (h.rel_findKind? (by decide)))
    (h.rel_findKind? (by decide))

theorem rel_text_child? (h : Trimmed n m) (field : String) :
    Option.Rel (fun c d => ctx.text c = ctx.text d) (n.child? field) (m.child? field) := by
  have hchild := h.rel_child? field
  generalize n.child? field = x, m.child? field = y at hchild
  cases hchild with
  | none => exact .none
  | some hchild => exact .some (hchild.text_eq ctx)

theorem text_child?_eq (h : Trimmed n m) (field : String) :
    (n.child? field).map ctx.text = (m.child? field).map ctx.text := by
  have hchild := h.rel_text_child? ctx field
  generalize n.child? field = x, m.child? field = y at hchild
  cases hchild with
  | none => rfl
  | some htext => rw [Option.map_some, Option.map_some, htext]

/-- Holders that are trimmed bind the same constant. -/
theorem boundConstant?_eq (h : Trimmed n m) :
    ctx.boundConstant? (some n) = ctx.boundConstant? (some m) := by
  have hleft := h.rel_child? "left"
  simp only [Context.boundConstant?, h.kind_eq]
  generalize n.child? "left" = x, m.child? "left" = y at hleft
  cases hleft with
  | none => rfl
  | some hleft => simp only [hleft.kind_eq, hleft.text_eq ctx]

theorem name?_eq (h : Trimmed n m) : ctx.name? n = ctx.name? m :=
  h.text_child?_eq ctx "name"

theorem callee_eq (h : Trimmed n m) : ctx.callee n = ctx.callee m := by
  rw [Context.callee, Context.callee, h.text_child?_eq]

theorem definition_eq (h : Trimmed n m) (inSingleton : Bool) :
    ctx.definition inSingleton n = ctx.definition inSingleton m := by
  rw [Context.definition, Context.definition, h.name?_eq, h.kind_eq, h.site_eq, h.label_eq]

/-! ## Directives -/

theorem nameOf_eq (h : Trimmed n m) : ctx.nameOf n = ctx.nameOf m := by
  refine Context.nameOf_eq_of_parts h.kind_eq (h.text_eq ctx) h.site_eq fun hliteral => ?_
  have hparts := h.namedChildren.forall₂ (.inl hliteral)
  generalize n.namedChildren = ns, m.namedChildren = ms at hparts
  induction hparts with
  | nil => rfl
  | cons hcd _ ih => rw [List.map_cons, List.map_cons, ih, hcd.kind_eq, hcd.text_eq ctx]

theorem sameTargets (h : Trimmed n m) (inSingleton : Bool) :
    Context.SameTargets ctx inSingleton (ctx.argumentTargets inSingleton n)
      (ctx.argumentTargets inSingleton m) := by
  refine Context.sameTargets_argument h.kind_eq h.site_eq (h.nameOf_eq ctx) (fun _ => ?_) ?_
  · exact h.namedChildren.forall₂_dropComments.imp fun c d hcd => hcd.nameOf_eq ctx
  · simp only [Context.share, h.definition_eq, h.name?_eq]

/-- Calls that are trimmed are ruled on alike: comments among the arguments do not count. -/
theorem ruling_eq (h : Trimmed n m) (inSingleton : Bool) (level : Level) :
    ctx.ruling inSingleton level n = ctx.ruling inSingleton level m := by
  have hblock := h.rel_child? "block"
  have hargs := h.rel_child? "arguments"
  refine Context.ruling_eq h.site_eq ?_ ?_ level
  · generalize n.child? "block" = x, m.child? "block" = y at hblock
    cases hblock with
    | none => rfl
    | some _ => rfl
  · rw [Context.arguments, Context.arguments]
    generalize n.child? "arguments" = x, m.child? "arguments" = y at hargs
    cases hargs with
    | none => exact .nil
    | some hlist =>
      exact hlist.namedChildren.forall₂_dropComments.imp fun a b hab =>
        hab.sameTargets ctx inSingleton

/-! ## Trimming is a bisimulation -/

theorem forall₂_statements (h : Trimmed n m) : List.Forall₂ Trimmed n.statements m.statements := by
  have hbody := h.rel_body?
  rw [Node.statements, Node.statements]
  generalize n.body? = x, m.body? = y at hbody
  cases hbody with
  | some hbody => exact hbody.namedChildren.forall₂_dropComments
  | none =>
    have hbeyond : Kept Trimmed n.isLiteral n.beyondHeader m.beyondHeader :=
      (((h.children.without "name").without "superclass").without "value").without "parameters"
    refine hbeyond.forall₂_filter (fun c d hlabel => ?_) (fun c hc => ?_)
    · rw [Node.isComment, Node.isComment, Node.named, Node.named, Node.kind, Node.kind, hlabel]
    · simp only [Bool.and_eq_true, Bool.not_eq_true'] at hc
      exact hc.1.2

theorem statementHolder (h : Trimmed n m) : Trimmed n.statementHolder m.statementHolder := by
  have hbody := h.rel_body?
  rw [Node.statementHolder, Node.statementHolder]
  generalize n.body? = x, m.body? = y at hbody
  cases hbody with
  | some hbody => exact hbody
  | none => exact h

theorem visitChildren (h : Trimmed n m) :
    List.Forall₂ (Task.Paired ctx Trimmed Trimmed) (visitChildren n) (visitChildren m) := by
  have hcontainer : n.isContainer = m.isContainer := by
    rw [Node.isContainer, Node.isContainer, h.kind_eq]
  rw [MethodVisibility.visitChildren, MethodVisibility.visitChildren, hcontainer]
  exact visits_paired (h.boundConstant?_eq ctx) h.namedChildren.forall₂_dropComments

theorem visitBesideBlock (h : Trimmed n m) :
    List.Forall₂ (Task.Paired ctx Trimmed Trimmed) (visitBesideBlock n) (visitBesideBlock m) := by
  have hbeside : Kept Trimmed n.isLiteral ((Node.without "block" n.children).filter (·.named))
      ((Node.without "block" m.children).filter (·.named)) := by
    refine (h.children.without "block").filter fun c d hlabel => ?_
    rw [Node.named, Node.named, hlabel]
  exact visits_paired (h.boundConstant?_eq ctx) hbeside.forall₂_dropComments

/-- A walk comes from trimmed nodes to trimmed nodes. -/
theorem bisimulation : Bisimulation ctx Trimmed Trimmed where
  form bound nodes := by
    refine form_paired nodes.kind_eq (nodes.name?_eq ctx) (nodes.text_eq ctx) nodes.site_eq
      (fun _ => nodes) (nodes.definition_eq ctx) (fun _ _ => ?_) (fun _ => nodes.visitChildren ctx)
    exact callForm_paired bound (nodes.callee_eq ctx) (nodes.rel_text_child? ctx "receiver")
      (nodes.rel_child? "block") (nodes.ruling_eq ctx) (nodes.visitChildren ctx)
      (nodes.visitBesideBlock ctx)
  site nodes := nodes.site_eq
  statements {n m} nodes := by
    refine visits_paired (nodes.statementHolder.boundConstant?_eq ctx) ?_
    rw [Node.dropComments_statements, Node.dropComments_statements]
    exact nodes.forall₂_statements

end Trimmed

/-! ## Walks over pruned trees -/

/-- Free comments can be taken out of a tree, and out of the tree around it, and nothing that
    is said changes, in whatever session and for however many events; nor does the resolution. -/
theorem comments_make_no_difference (ctx : Context) (holder : Option Node) (root : Node)
    (around gone : Place → Bool) (haround : ∀ h ∈ holder, h.FreeComments around)
    (hgone : root.FreeComments gone) :
    (∀ (s : Session) (limit : Option Nat),
      s.walk ctx limit (holder.map (·.prune around)) (root.prune gone) =
        s.walk ctx limit holder root) ∧
    eventsOf (ctx.outputs (holder.map (·.prune around)) (root.prune gone)) =
      eventsOf (ctx.outputs holder root) ∧
    rejectionsOf (ctx.outputs (holder.map (·.prune around)) (root.prune gone)) =
      rejectionsOf (ctx.outputs holder root) ∧
    ∀ label, resolveTree ctx (holder.map (·.prune around)) (root.prune gone) label =
      resolveTree ctx holder root label := by
  have hbound : ctx.boundConstant? holder = ctx.boundConstant? (holder.map (·.prune around)) := by
    cases holder with
    | none => rfl
    | some h => exact (trimmed_prune h (haround h rfl)).boundConstant?_eq ctx
  have hwalk := fun s limit =>
    ((Trimmed.bisimulation ctx).walk_eq s limit hbound (trimmed_prune root hgone)).symm
  have houtputs : ctx.outputs (holder.map (·.prune around)) (root.prune gone) =
      ctx.outputs holder root := by
    rw [Context.outputs, Context.outputs, hwalk]
  refine ⟨hwalk, by rw [houtputs], by rw [houtputs], fun label => ?_⟩
  rw [resolveTree, resolveTree, houtputs]

/-- A class with comments before its body, beside and in an argument of a directive, and behind
    the directive; the last has a definition in it. -/
def commentedTree : Node :=
  sampleNode "program" none 0 23 [
    sampleNode "class" none 0 23 [
      sampleNode "constant" (some "name") 16 17 [],
      sampleNode "comment" none 0 1 [],
      sampleNode "body_statement" (some "body") 0 23 [
        sampleNode "method" none 0 23 [sampleNode "identifier" (some "name") 18 19 []],
        sampleNode "call" none 0 23 [
          sampleNode "identifier" (some "method") 0 7 [],
          sampleNode "argument_list" (some "arguments") 0 23 [
            sampleNode "comment" none 0 1 [],
            sampleNode "array" none 0 23 [
              sampleNode "simple_symbol" none 18 19 [],
              sampleNode "comment" none 0 1 []]]],
        sampleNode "comment" none 0 1 [
          sampleNode "method" none 0 23 [sampleNode "identifier" (some "name") 20 21 []]]]]]

/-- The places of the comments of `commentedTree`. -/
def commentPlaces : List Place :=
  [[0, 1], [0, 2, 1, 1, 0], [0, 2, 1, 1, 1, 1], [0, 2, 2]]

/-- Without its comments `commentedTree` is a smaller tree of which the same is said. -/
theorem comments_of_commentedTree :
    commentedTree.FreeComments (· ∈ commentPlaces) ∧
      (commentedTree.prune (· ∈ commentPlaces)).places.length + 6 =
        commentedTree.places.length ∧
      eventsOf (sampleContext.outputs none (commentedTree.prune (· ∈ commentPlaces))) =
        [.openScope .typeBody (some "x") (some ⟨1, some 1, 0⟩),
          .method "y" (some ⟨1, some 1, 0⟩), .targeted .priv ["y"] (some ⟨1, some 1, 0⟩),
          .closeScope (some ⟨1, some 1, 0⟩)] := by
  have hfree : commentedTree.FreeComments (· ∈ commentPlaces) := by
    intro p hp
    simp only [commentPlaces, List.mem_cons, List.not_mem_nil, or_false,
      decide_eq_true_eq] at hp
    rcases hp with rfl | rfl | rfl | rfl
    · exact ⟨[0], 1, _, _, rfl, rfl, rfl, rfl, rfl, rfl⟩
    · exact ⟨[0, 2, 1, 1], 0, _, _, rfl, rfl, rfl, rfl, rfl, rfl⟩
    · exact ⟨[0, 2, 1, 1, 1], 1, _, _, rfl, rfl, rfl, rfl, rfl, rfl⟩
    · exact ⟨[0, 2], 2, _, _, rfl, rfl, rfl, rfl, rfl, rfl⟩
  obtain ⟨_, hevents, _, _⟩ := comments_make_no_difference sampleContext none commentedTree
    (fun _ => false) (· ∈ commentPlaces) (fun _ hnone => nomatch hnone) hfree
  exact ⟨hfree, by decide +kernel, hevents.trans (by decide +kernel)⟩

end MethodVisibility
