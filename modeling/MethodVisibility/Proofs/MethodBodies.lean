/-
  Method bodies are not looked into.

  Two trees are `Alike` if they are the same apart from what stands inside definitions: a
  definition keeps its face and its name, and may have any other children. This goes for every
  definition in a free `Seat`. The others are those whose children a walk takes in their place:
  the body of a scope or of the block of a call, and the block and the arguments of a call.

  Likeness is a bisimulation (`Alike.bisimulation`): wherever a walk looks at a node, it sees
  no more of a definition than its face and its name. `bodies_not_looked_into`: a walk over
  alike trees says the same and leaves the same scopes, and the resolutions are the same.
-/
import MethodVisibility.Proofs.Coverage
import MethodVisibility.Proofs.Faces
import MethodVisibility.Proofs.Places
import MethodVisibility.Resolver

namespace MethodVisibility

namespace Node

/-- Whether a node is a scope by its own kind. -/
def isScope (n : Node) : Bool :=
  n.kind ∈ ["class", "module", "singleton_class"]

end Node

/-! ## Likeness -/

/-- What a node is to the one that holds it. -/
inductive Seat where
  /-- Its children are taken in its place: the body of a scope, the arguments of a call. -/
  | holder
  /-- The block of a call. -/
  | block
  /-- Anything else. -/
  | free
deriving DecidableEq

/-- The seat of the child at position `i` of a node whose own seat is `seat`. -/
def Seat.below (seat : Seat) (n : Node) (i : Nat) : Seat :=
  if n.isCall && n.fieldIndex? "block" == some i then .block
  else if n.isCall && n.fieldIndex? "arguments" == some i then .holder
  else if (n.isScope || seat == .block) && n.bodyIndex? == some i then .holder
  else .free

/-- Trees that are the same apart from what stands inside definitions: one in a free seat keeps
    its face and its name. -/
inductive Alike (ctx : Context) : Seat → Node → Node → Prop
  | definition {n m : Node} (face : n.face = m.face) (isDefinition : n.isDefinition = true)
      (name : ctx.name? n = ctx.name? m) : Alike ctx .free n m
  | node {seat : Seat} {n m : Node} (face : n.face = m.face)
      (length : n.children.length = m.children.length)
      (children : ∀ i c d, n.children[i]? = some c → m.children[i]? = some d →
        Alike ctx (seat.below n i) c d) : Alike ctx seat n m

namespace Alike

variable {ctx : Context} {seat : Seat} {n m : Node}

theorem refl (ctx : Context) (seat : Seat) (n : Node) : Alike ctx seat n n := by
  induction n using Node.induction generalizing seat with
  | step n ih =>
    refine .node rfl rfl fun i c d hc hd => ?_
    rw [hc] at hd
    cases hd
    exact ih c (List.mem_of_getElem? hc) _

theorem face_eq (h : Alike ctx seat n m) : n.face = m.face := by
  cases h with
  | definition face _ _ => exact face
  | node face _ _ => exact face

/-- A child may be replaced by one that is alike in the same seat. -/
theorem replace {label : Label} {seat' : Seat} (before after : List Node) {c d : Node}
    (hseat : seat.below (.mk label (before ++ c :: after)) before.length = seat')
    (h : Alike ctx seat' c d) :
    Alike ctx seat (.mk label (before ++ c :: after)) (.mk label (before ++ d :: after)) := by
  refine .node rfl (by simp [Node.children]) fun i x y hx hy => ?_
  simp only [Node.children] at hx hy
  by_cases hi : i = before.length
  · subst hi
    simp only [List.getElem?_append_right (Nat.le_refl _), Nat.sub_self,
      List.getElem?_cons_zero] at hx hy
    cases hx
    cases hy
    rwa [hseat]
  · have hsame : (before ++ c :: after)[i]? = (before ++ d :: after)[i]? := by
      by_cases hlt : i < before.length
      · rw [List.getElem?_append_left hlt, List.getElem?_append_left hlt]
      · obtain ⟨k, hk⟩ : ∃ k, i - before.length = k + 1 := ⟨i - before.length - 1, by omega⟩
        rw [List.getElem?_append_right (by omega), List.getElem?_append_right (by omega), hk,
          List.getElem?_cons_succ, List.getElem?_cons_succ]
    rw [hsame, hy] at hx
    cases hx
    exact .refl ctx _ x

/-- Nodes that are alike in some seat are alike in a free one. -/
theorem as_free (h : Alike ctx seat n m) : Alike ctx .free n m := by
  induction h with
  | definition face isDefinition name => exact .definition face isDefinition name
  | @node seat n m face length children ih =>
    refine .node face length fun i c d hc hd => ?_
    -- in a free seat a node gives a child the same seat as before or a free one
    have hbelow : Seat.free.below n i = seat.below n i ∨ Seat.free.below n i = .free := by
      unfold Seat.below
      split
      · exact .inl rfl
      · split
        · exact .inl rfl
        · split
          · next h =>
            have hown : n.isScope = true ∧ n.bodyIndex? = some i := by simpa using h
            left
            rw [if_pos (by simp [hown])]
          · exact .inr rfl
    rcases hbelow with hbelow | hbelow
    · rw [hbelow]
      exact children i c d hc hd
    · rw [hbelow]
      exact ih i c d hc hd

end Alike

/-- Nodes that show the same and whose children are alike. -/
structure AlikeWithin (ctx : Context) (seat : Seat) (n m : Node) : Prop where
  face : n.face = m.face
  length : n.children.length = m.children.length
  children : ∀ i c d, n.children[i]? = some c → m.children[i]? = some d →
    Alike ctx (seat.below n i) c d

/-- Nodes that are alike have children that are, unless they are definitions in a free seat. -/
theorem Alike.within {ctx : Context} {seat : Seat} {n m : Node} (h : Alike ctx seat n m)
    (hopen : seat ≠ .free ∨ n.isDefinition = false) : AlikeWithin ctx seat n m := by
  cases h with
  | definition face isDefinition name => simp [isDefinition] at hopen
  | node face length children => exact ⟨face, length, children⟩

/-! ## Children -/

theorem findIdx?_of_forall₂ {R : Node → Node → Prop} {xs ys : List Node} {p : Node → Bool}
    (h : List.Forall₂ R xs ys) (hp : ∀ x y, R x y → p x = p y) :
    xs.findIdx? p = ys.findIdx? p := by
  induction h with
  | nil => rfl
  | cons hxy _ ih => rw [List.findIdx?_cons, List.findIdx?_cons, hp _ _ hxy, ih]

/-- Nodes that are alike in a seat where their children are taken in their place. -/
def Seated (ctx : Context) (n m : Node) : Prop :=
  ∃ seat, seat ≠ .free ∧ Alike ctx seat n m

namespace AlikeWithin

variable {ctx : Context} {seat : Seat} {n m : Node}

theorem forall₂_children (h : AlikeWithin ctx seat n m) :
    List.Forall₂ (Alike ctx .free) n.children m.children := by
  refine List.forall₂_of_length_eq_of_get h.length fun i h₁ h₂ => ?_
  have hcd := h.children i _ _ (List.getElem?_eq_getElem h₁) (List.getElem?_eq_getElem h₂)
  exact hcd.as_free

theorem fieldIndex?_eq (h : AlikeWithin ctx seat n m) (field : String) :
    n.fieldIndex? field = m.fieldIndex? field := by
  refine findIdx?_of_forall₂ h.forall₂_children fun c d hcd => ?_
  rw [Node.field_of_face hcd.face_eq]

theorem bodyIndex?_eq (h : AlikeWithin ctx seat n m) : n.bodyIndex? = m.bodyIndex? := by
  have hkind : ∀ kind, n.children.findIdx? (·.kind == kind) =
      m.children.findIdx? (·.kind == kind) := by
    intro kind
    refine findIdx?_of_forall₂ h.forall₂_children fun c d hcd => ?_
    rw [Node.kind_of_face hcd.face_eq]
  rw [Node.bodyIndex?, Node.bodyIndex?, h.fieldIndex?_eq, hkind, hkind]

/-- What holds of nodes that are alike in the seat of a position holds of the children at that
    position, if there are any. -/
theorem rel_bind (h : AlikeWithin ctx seat n m) {Q : Node → Node → Prop} {i? : Option Nat}
    (hQ : ∀ i c d, i? = some i → Alike ctx (seat.below n i) c d → Q c d) :
    Option.Rel Q (i?.bind (n.children[·]?)) (i?.bind (m.children[·]?)) := by
  cases i? with
  | none => exact .none
  | some i =>
    rw [Option.bind_some, Option.bind_some]
    by_cases hi : i < n.children.length
    · have hc := List.getElem?_eq_getElem hi
      have hd := List.getElem?_eq_getElem (h.length ▸ hi)
      rw [hc, hd]
      exact .some (hQ i _ _ rfl (h.children i _ _ hc hd))
    · have := h.length
      rw [List.getElem?_eq_none (by omega), List.getElem?_eq_none (by omega)]
      exact .none

theorem rel_block (h : AlikeWithin ctx seat n m) (hcall : n.isCall = true) :
    Option.Rel (Alike ctx .block) (n.child? "block") (m.child? "block") := by
  rw [Node.child?_eq_bind, Node.child?_eq_bind, ← h.fieldIndex?_eq]
  refine h.rel_bind fun i c d hi hcd => ?_
  rwa [Seat.below, if_pos (by simp [hcall, hi])] at hcd

theorem rel_arguments (h : AlikeWithin ctx seat n m) (hcall : n.isCall = true) :
    Option.Rel (Seated ctx) (n.child? "arguments") (m.child? "arguments") := by
  rw [Node.child?_eq_bind, Node.child?_eq_bind, ← h.fieldIndex?_eq]
  refine h.rel_bind fun i c d hi hcd => ⟨seat.below n i, ?_, hcd⟩
  unfold Seat.below
  split
  · simp
  · rw [if_pos (by simp [hcall, hi])]
    simp

theorem rel_body? (h : AlikeWithin ctx seat n m) (hscope : n.isScope = true ∨ seat = .block) :
    Option.Rel (Seated ctx) n.body? m.body? := by
  rw [Node.body?_eq_bind, Node.body?_eq_bind, ← h.bodyIndex?_eq]
  refine h.rel_bind fun i c d hi hcd => ⟨seat.below n i, ?_, hcd⟩
  unfold Seat.below
  split
  · simp
  · split
    · simp
    · rw [if_pos (by simpa [hi] using hscope)]
      simp

end AlikeWithin

/-! ## What is read of nodes that are alike -/

section Lists

variable {ctx : Context} {ns ms : List Node}

theorem alike_dropComments (h : List.Forall₂ (Alike ctx .free) ns ms) :
    List.Forall₂ (Alike ctx .free) (Node.dropComments ns) (Node.dropComments ms) := by
  refine forall₂_filter h fun c d hcd => ?_
  rw [Node.isComment, Node.isComment, Node.kind_of_face hcd.face_eq]

theorem alike_without (field : String) (h : List.Forall₂ (Alike ctx .free) ns ms) :
    List.Forall₂ (Alike ctx .free) (Node.without field ns) (Node.without field ms) :=
  forall₂_without h (fun _ _ hcd => Node.field_of_face hcd.face_eq) field

end Lists

namespace AlikeWithin

variable {ctx : Context} {seat : Seat} {n m : Node}

theorem forall₂_namedChildren (h : AlikeWithin ctx seat n m) :
    List.Forall₂ (Alike ctx .free) n.namedChildren m.namedChildren :=
  forall₂_filter h.forall₂_children fun _ _ hcd => Node.named_of_face hcd.face_eq

theorem matched (h : AlikeWithin ctx seat n m) : Matched (Alike ctx .free) n m :=
  ⟨h.face, h.forall₂_children.imp fun _ _ hcd => ⟨hcd.face_eq, hcd⟩⟩

end AlikeWithin

namespace Alike

variable {ctx : Context} {seat : Seat} {n m : Node}

/-- Holders that are alike bind the same constant. -/
theorem boundConstant?_eq (h : Alike ctx seat n m) :
    ctx.boundConstant? (some n) = ctx.boundConstant? (some m) := by
  by_cases hkind : n.kind = "assignment"
  · exact (h.within (.inr (by simp [Node.isDefinition, hkind]))).matched.boundConstant?_eq
  · simp only [Context.boundConstant?, ← Node.kind_of_face h.face_eq, if_neg hkind]

theorem name?_eq (h : Alike ctx seat n m) : ctx.name? n = ctx.name? m := by
  cases h with
  | definition face isDefinition name => exact name
  | node face length children =>
    have hwithin : AlikeWithin ctx seat n m := ⟨face, length, children⟩
    exact hwithin.matched.name?_eq

/-- Definitions that are alike are reported alike. -/
theorem definition_eq (h : Alike ctx seat n m) (inSingleton : Bool) :
    ctx.definition inSingleton n = ctx.definition inSingleton m := by
  rw [Context.definition, Context.definition, h.name?_eq, Node.kind_of_face h.face_eq,
    Node.site_of_face h.face_eq, Node.span_of_face h.face_eq]

end Alike

/-! ## Directives -/

section Directives

variable {ctx : Context} {seat : Seat} {n m : Node}

/-- Nodes that are alike give the same name as an argument, if they give one. -/
theorem Alike.nameOf_eq (h : Alike ctx seat n m) : ctx.nameOf n = ctx.nameOf m := by
  refine Context.nameOf_eq_of_parts (Node.kind_of_face h.face_eq)
    (Node.text_of_face ctx h.face_eq) (Node.site_of_face h.face_eq) fun hliteral => ?_
  have hdefinition : n.isDefinition = false := by
    simp only [Node.isLiteral, List.mem_cons, List.not_mem_nil, or_false,
      decide_eq_true_eq] at hliteral
    rcases hliteral with hkind | hkind | hkind | hkind <;> simp [Node.isDefinition, hkind]
  exact (h.within (.inr hdefinition)).matched.map_parts_eq

/-- Arguments that are alike give a directive the same. -/
theorem Alike.sameTargets (h : Alike ctx seat n m) (inSingleton : Bool) :
    Context.SameTargets ctx inSingleton (ctx.argumentTargets inSingleton n)
      (ctx.argumentTargets inSingleton m) := by
  refine Context.sameTargets_argument (Node.kind_of_face h.face_eq)
    (Node.site_of_face h.face_eq) h.nameOf_eq (fun hlist => ?_) ?_
  · have hdefinition : n.isDefinition = false := by
      simp only [Node.isNameList, List.mem_cons, List.not_mem_nil, or_false,
        decide_eq_true_eq] at hlist
      rcases hlist with hkind | hkind | hkind <;> simp [Node.isDefinition, hkind]
    have hparts := (h.within (.inr hdefinition)).forall₂_namedChildren
    exact (alike_dropComments hparts).imp fun c d hcd => hcd.nameOf_eq
  · simp only [Context.share, h.definition_eq, h.name?_eq]

theorem Seated.forall₂_namedChildren (h : Seated ctx n m) :
    List.Forall₂ (Alike ctx .free) n.namedChildren m.namedChildren := by
  obtain ⟨seat, hseat, h⟩ := h
  exact (h.within (.inl hseat)).forall₂_namedChildren

/-- Calls that are alike are ruled on alike. -/
theorem AlikeWithin.ruling_eq (h : AlikeWithin ctx seat n m) (hcall : n.isCall = true)
    (inSingleton : Bool) (level : Level) :
    ctx.ruling inSingleton level n = ctx.ruling inSingleton level m := by
  have hblock := h.rel_block hcall
  have hargs := h.rel_arguments hcall
  refine Context.ruling_eq (Node.site_of_face h.face) ?_ ?_ level
  · generalize n.child? "block" = x, m.child? "block" = y at hblock
    cases hblock with
    | none => rfl
    | some _ => rfl
  · rw [Context.arguments, Context.arguments]
    generalize n.child? "arguments" = x, m.child? "arguments" = y at hargs
    cases hargs with
    | none => exact .nil
    | some hlist =>
      refine (alike_dropComments hlist.forall₂_namedChildren).imp fun a b hab => ?_
      exact hab.sameTargets inSingleton

end Directives

/-! ## Likeness is a bisimulation -/

/-- Nodes that are alike and scopes: by their kind, or as the block of a call. -/
def AlikeScopes (ctx : Context) (n m : Node) : Prop :=
  ∃ seat, Alike ctx seat n m ∧ (n.isScope = true ∨ seat = .block)

section Walks

variable {ctx : Context} {seat : Seat} {n m : Node}

theorem AlikeScopes.within (h : AlikeScopes ctx n m) :
    ∃ seat, AlikeWithin ctx seat n m ∧ (n.isScope = true ∨ seat = .block) := by
  obtain ⟨seat, h, hscope⟩ := h
  refine ⟨seat, h.within ?_, hscope⟩
  rcases hscope with hscope | hseat
  · right
    simp only [Node.isScope, List.mem_cons, List.not_mem_nil, or_false,
      decide_eq_true_eq] at hscope
    rcases hscope with hkind | hkind | hkind <;> simp [Node.isDefinition, hkind]
  · left
    simp [hseat]

/-- Scopes that are alike have statements that are alike. -/
theorem AlikeScopes.forall₂_statements (h : AlikeScopes ctx n m) :
    List.Forall₂ (Alike ctx .free) n.statements m.statements := by
  obtain ⟨seat, hwithin, hscope⟩ := h.within
  have hbody := hwithin.rel_body? hscope
  rw [Node.statements, Node.statements]
  generalize n.body? = x, m.body? = y at hbody
  cases hbody with
  | some hbody => exact alike_dropComments hbody.forall₂_namedChildren
  | none =>
    have hbeyond : List.Forall₂ (Alike ctx .free) n.beyondHeader m.beyondHeader :=
      alike_without _ (alike_without _ (alike_without _ (alike_without _
        hwithin.forall₂_children)))
    refine forall₂_filter hbeyond fun c d hcd => ?_
    rw [Node.isComment, Node.isComment, Node.named_of_face hcd.face_eq,
      Node.kind_of_face hcd.face_eq]

theorem AlikeScopes.statementHolder (h : AlikeScopes ctx n m) :
    Alike ctx .free n.statementHolder m.statementHolder := by
  obtain ⟨seat, hwithin, hscope⟩ := h.within
  have hbody := hwithin.rel_body? hscope
  rw [Node.statementHolder, Node.statementHolder]
  generalize n.body? = x, m.body? = y at hbody
  cases hbody with
  | some hbody =>
    obtain ⟨_, _, hbody⟩ := hbody
    exact hbody.as_free
  | none =>
    obtain ⟨_, h, _⟩ := h
    exact h.as_free

theorem AlikeWithin.alike (h : AlikeWithin ctx seat n m) : Alike ctx seat n m :=
  .node h.face h.length h.children

theorem AlikeWithin.visitChildren (h : AlikeWithin ctx seat n m) :
    List.Forall₂ (Task.Paired ctx (Alike ctx .free) (AlikeScopes ctx))
      (visitChildren n) (visitChildren m) := by
  have hcontainer : n.isContainer = m.isContainer := by
    rw [Node.isContainer, Node.isContainer, Node.kind_of_face h.face]
  rw [MethodVisibility.visitChildren, MethodVisibility.visitChildren, hcontainer]
  exact visits_paired h.alike.boundConstant?_eq (alike_dropComments h.forall₂_namedChildren)

theorem AlikeWithin.visitBesideBlock (h : AlikeWithin ctx seat n m) :
    List.Forall₂ (Task.Paired ctx (Alike ctx .free) (AlikeScopes ctx))
      (visitBesideBlock n) (visitBesideBlock m) := by
  refine visits_paired h.alike.boundConstant?_eq (alike_dropComments ?_)
  exact forall₂_filter (alike_without _ h.forall₂_children) fun _ _ hcd =>
    Node.named_of_face hcd.face_eq

/-- Calls that are alike have forms under which a walk does the same. -/
theorem AlikeWithin.callForm (h : AlikeWithin ctx seat n m) (hcall : n.isCall = true)
    {holder holder' : Option Node}
    (bound : ctx.boundConstant? holder = ctx.boundConstant? holder') :
    Form.Paired ctx (Alike ctx .free) (AlikeScopes ctx) n m (ctx.callForm holder n)
      (ctx.callForm holder' m) := by
  have hblock := h.rel_block hcall
  refine callForm_paired bound h.matched.callee_eq (h.matched.rel_text_child? "receiver") ?_
    (fun inSingleton level => h.ruling_eq hcall inSingleton level) h.visitChildren
    h.visitBesideBlock
  generalize n.child? "block" = x, m.child? "block" = y at hblock
  cases hblock with
  | none => exact .none
  | some hblock => exact .some ⟨.block, hblock, .inr rfl⟩

/-- Nodes that are alike have forms under which a walk does the same. -/
theorem Alike.form (h : Alike ctx .free n m) {holder holder' : Option Node}
    (bound : ctx.boundConstant? holder = ctx.boundConstant? holder') :
    Form.Paired ctx (Alike ctx .free) (AlikeScopes ctx) n m (ctx.form holder n)
      (ctx.form holder' m) := by
  refine form_paired (Node.kind_of_face h.face_eq) h.name?_eq (Node.text_of_face ctx h.face_eq)
    (Node.site_of_face h.face_eq) ?_ h.definition_eq ?_ ?_
  · intro hscope
    exact ⟨.free, h, .inl (by simpa only [Node.isScope, decide_eq_true_eq] using hscope)⟩
  · intro hdefinition hcall
    exact (h.within (.inr hdefinition)).callForm hcall bound
  · intro hdefinition
    exact (h.within (.inr hdefinition)).visitChildren

/-- A walk comes from nodes that are alike to nodes that are alike. -/
theorem Alike.bisimulation (ctx : Context) :
    Bisimulation ctx (Alike ctx .free) (AlikeScopes ctx) where
  form bound nodes := nodes.form bound
  site nodes := by
    obtain ⟨_, h, _⟩ := nodes
    exact Node.site_of_face h.face_eq
  statements nodes :=
    visits_paired nodes.statementHolder.boundConstant?_eq
      (alike_dropComments nodes.forall₂_statements)

end Walks

/-! ## Walks over trees that are alike -/

/-- Walks over trees that are alike say the same, in whatever session and for however many
    events, and their resolutions are the same: nothing inside a definition counts. -/
theorem bodies_not_looked_into (ctx : Context) {holder holder' : Option Node}
    {root root' : Node} (hholder : Option.Rel (Alike ctx .free) holder holder')
    (hroot : Alike ctx .free root root') :
    (∀ (s : Session) (limit : Option Nat),
      s.walk ctx limit holder root = s.walk ctx limit holder' root') ∧
    eventsOf (ctx.outputs holder root) = eventsOf (ctx.outputs holder' root') ∧
    rejectionsOf (ctx.outputs holder root) = rejectionsOf (ctx.outputs holder' root') ∧
    ∀ label, resolveTree ctx holder root label = resolveTree ctx holder' root' label := by
  have hbound : ctx.boundConstant? holder = ctx.boundConstant? holder' := by
    cases hholder with
    | none => rfl
    | some h => exact h.boundConstant?_eq
  have hwalk := fun s limit => (Alike.bisimulation ctx).walk_eq s limit hbound hroot
  have houtputs : ctx.outputs holder root = ctx.outputs holder' root' := by
    rw [Context.outputs, Context.outputs, hwalk]
  refine ⟨hwalk, by rw [houtputs], by rw [houtputs], fun label => ?_⟩
  rw [resolveTree, resolveTree, houtputs]

/-- A class with a directive before a definition, of which `inside` is all but the name. -/
def definingTree (inside : List Node) : Node :=
  sampleNode "program" none 0 23 [
    sampleNode "class" none 0 23 [
      sampleNode "constant" (some "name") 16 17 [],
      sampleNode "body_statement" (some "body") 0 23 [
        sampleNode "call" none 0 23 [
          sampleNode "identifier" (some "method") 0 7 [],
          sampleNode "argument_list" (some "arguments") 0 23 [
            sampleNode "method" none 0 23
              (sampleNode "identifier" (some "name") 18 19 [] :: inside)]]]]]

/-- A body with a definition and a word that would be a directive in it. -/
def blockBody : List Node := [
  sampleNode "method_parameters" (some "parameters") 20 21 [],
  sampleNode "body_statement" (some "body") 0 23 [
    sampleNode "method" none 0 23 [sampleNode "identifier" (some "name") 20 21 []],
    sampleNode "identifier" none 0 7 []]]

/-- The body of a definition that is one expression. -/
def endlessBody : List Node := [sampleNode "integer" (some "body") 22 23 []]

/-- A definition with a block body and one that is a single expression make no difference. -/
theorem bodies_not_looked_into_definingTree :
    Alike sampleContext .free (definingTree blockBody) (definingTree endlessBody) ∧
      eventsOf (sampleContext.outputs none (definingTree blockBody)) =
        [.openScope .typeBody (some "x") (some ⟨1, some 1, 0⟩),
          .method "y" (some ⟨1, some 1, 0⟩), .targeted .priv ["y"] (some ⟨1, some 1, 0⟩),
          .closeScope (some ⟨1, some 1, 0⟩)] ∧
      resolveTree sampleContext none (definingTree blockBody) none =
        resolveTree sampleContext none (definingTree endlessBody) none := by
  have halike : Alike sampleContext .free (definingTree blockBody) (definingTree endlessBody) := by
    refine .replace [] [] rfl ?_
    refine .replace [_] [] rfl ?_
    refine .replace [] [] rfl ?_
    refine .replace [_] [] rfl ?_
    refine .replace [] [] rfl ?_
    exact .definition rfl rfl rfl
  obtain ⟨_, hevents, _, hresolve⟩ := bodies_not_looked_into sampleContext .none halike
  exact ⟨halike, hevents.trans (by decide +kernel), hresolve none⟩

end MethodVisibility
