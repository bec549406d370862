/-
  What a node shows.

  Of most nodes a walk reads no more than the face: the kind, the field, the span and whether the
  node is more than a token. Nodes are `Matched` if they show the same and so do their children, one
  by one. Then what is looked up among the children is the same as well: names, callees, bound
  constants, and what a definition or a name is to a directive.
-/
import MethodVisibility.Proofs.Lockstep

namespace MethodVisibility

/-! ## Faces -/

namespace Node

/-- What a node shows without its children and its number: its kind, field and span, and
    whether it is more than a token. -/
def face (n : Node) : Label := { n.label with id := 0 }

variable {n m : Node}

theorem kind_of_face (h : n.face = m.face) : n.kind = m.kind := by
  show n.face.kind = m.face.kind
  rw [h]

theorem named_of_face (h : n.face = m.face) : n.named = m.named := by
  show n.face.named = m.face.named
  rw [h]

theorem field_of_face (h : n.face = m.face) : n.field = m.field := by
  show n.face.field = m.face.field
  rw [h]

theorem span_of_face (h : n.face = m.face) : n.label.span = m.label.span := by
  show n.face.span = m.face.span
  rw [h]

theorem site_of_face (h : n.face = m.face) : n.site = m.site := by
  rw [site, site, span_of_face h]

theorem text_of_face (ctx : Context) (h : n.face = m.face) : ctx.text n = ctx.text m := by
  rw [Context.text, Context.text, Source.text, Source.text, span_of_face h]

end Node

/-! ## Nodes that match -/

/-- Nodes that show the same and whose children, one by one, show the same and are related. -/
structure Matched (R : Node → Node → Prop) (n m : Node) : Prop where
  face : n.face = m.face
  children : List.Forall₂ (fun c d => c.face = d.face ∧ R c d) n.children m.children

namespace Matched

variable {ctx : Context} {R : Node → Node → Prop} {n m : Node}

theorem namedChildren (h : Matched R n m) :
    List.Forall₂ (fun c d => c.face = d.face ∧ R c d) n.namedChildren m.namedChildren :=
  forall₂_filter h.children fun _ _ hcd => Node.named_of_face hcd.1

theorem dropComments {ns ms : List Node}
    (h : List.Forall₂ (fun c d => c.face = d.face ∧ R c d) ns ms) :
    List.Forall₂ (fun c d => c.face = d.face ∧ R c d) (Node.dropComments ns)
      (Node.dropComments ms) := by
  refine forall₂_filter h fun c d hcd => ?_
  rw [Node.isComment, Node.isComment, Node.kind_of_face hcd.1]

theorem without {ns ms : List Node} (h : List.Forall₂ (fun c d => c.face = d.face ∧ R c d) ns ms)
    (field : String) : List.Forall₂ (fun c d => c.face = d.face ∧ R c d) (Node.without field ns)
      (Node.without field ms) :=
  forall₂_without h (fun _ _ hcd => Node.field_of_face hcd.1) field

theorem rel_child? (h : Matched R n m) (field : String) :
    Option.Rel (fun c d => c.face = d.face ∧ R c d ∧ c.field = some field) (n.child? field)
      (m.child? field) := by
  have hfound : Option.Rel _ (n.child? field) (m.child? field) :=
    rel_find? h.children fun c d hcd => by rw [Node.field_of_face hcd.1]
  exact rel_imp hfound fun c d hcd => ⟨hcd.1.1, hcd.1.2, by simpa using hcd.2⟩

theorem rel_findKind? (h : Matched R n m) (kind : String) :
    Option.Rel (fun c d => c.face = d.face ∧ R c d ∧ c.kind = kind) (n.findKind? kind)
      (m.findKind? kind) := by
  have hfound : Option.Rel _ (n.findKind? kind) (m.findKind? kind) :=
    rel_find? h.children fun c d hcd => by rw [Node.kind_of_face hcd.1]
  exact rel_imp hfound fun c d hcd => ⟨hcd.1.1, hcd.1.2, by simpa using hcd.2⟩

theorem rel_text_child? (h : Matched R n m) (field : String) :
    Option.Rel (fun c d => ctx.text c = ctx.text d) (n.child? field) (m.child? field) :=
  rel_imp (h.rel_child? field) fun _ _ hcd => Node.text_of_face ctx hcd.1

theorem text_child?_eq (h : Matched R n m) (field : String) :
    (n.child? field).map ctx.text = (m.child? field).map ctx.text := by
  have hchild : Option.Rel (fun c d => ctx.text c = ctx.text d) (n.child? field)
      (m.child? field) := h.rel_text_child? field
  generalize n.child? field = x, m.child? field = y at hchild
  cases hchild with
  | none => rfl
  | some htext => rw [Option.map_some, Option.map_some, htext]

theorem name?_eq (h : Matched R n m) : ctx.name? n = ctx.name? m :=
  h.text_child?_eq "name"

theorem callee_eq (h : Matched R n m) : ctx.callee n = ctx.callee m := by
  rw [Context.callee, Context.callee, h.text_child?_eq]

/-- Holders that match bind the same constant. -/
theorem boundConstant?_eq (h : Matched R n m) :
    ctx.boundConstant? (some n) = ctx.boundConstant? (some m) := by
  have hleft := h.rel_child? "left"
  simp only [Context.boundConstant?, Node.kind_of_face h.face]
  generalize n.child? "left" = x, m.child? "left" = y at hleft
  cases hleft with
  | none => rfl
  | some hleft => simp only [Node.kind_of_face hleft.1, Node.text_of_face ctx hleft.1]

theorem definition_eq (h : Matched R n m) (inSingleton : Bool) :
    ctx.definition inSingleton n = ctx.definition inSingleton m := by
  rw [Context.definition, Context.definition, h.name?_eq, Node.kind_of_face h.face,
    Node.site_of_face h.face, Node.span_of_face h.face]

theorem map_parts_eq (h : Matched R n m) :
    n.namedChildren.map (fun c => (c.kind, ctx.text c)) =
      m.namedChildren.map fun c => (c.kind, ctx.text c) := by
  have hparts := h.namedChildren
  generalize n.namedChildren = ns, m.namedChildren = ms at hparts
  induction hparts with
  | nil => rfl
  | cons hcd _ ih =>
    rw [List.map_cons, List.map_cons, ih, Node.kind_of_face hcd.1, Node.text_of_face ctx hcd.1]

/-- Nodes that match give the same name as an argument, if they give one. -/
theorem nameOf_eq (h : Matched R n m) : ctx.nameOf n = ctx.nameOf m :=
  Context.nameOf_eq_of_parts (Node.kind_of_face h.face) (Node.text_of_face ctx h.face)
    (Node.site_of_face h.face) fun _ => h.map_parts_eq

end Matched

end MethodVisibility
