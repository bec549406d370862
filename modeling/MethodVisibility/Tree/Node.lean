/-
  Syntax trees.

  A node has a kind, a flag that tells named nodes from mere tokens, the field under
  which its parent holds it, a span and its children. Trees come from outside and may
  be ones that no parser returns, so nothing is assumed of them.

  `Node.statements` gives the statements of a body: the children of the body node if
  there is one, else the children that are neither header, parameters nor comments.
  The functions return children in document order, and `sizeAll` of what they return
  is bounded by `size` (`sizeAll_statements_lt`), which is what a walk needs to end.
-/
import MethodVisibility.Site

namespace MethodVisibility

/-- The bytes and points between which a node stands. -/
structure Span where
  startByte : Nat
  endByte : Nat
  startPoint : Point
  endPoint : Point
deriving DecidableEq, Repr

/-- All that a node is apart from its children. -/
structure Label where
  /-- Number of the node in its tree. -/
  id : Nat
  kind : String
  /-- Whether the node is more than a token. -/
  named : Bool
  /-- The field under which the parent holds the node. -/
  field : Option String
  span : Span
deriving DecidableEq, Repr

/-- A node of a syntax tree. -/
inductive Node where
  | mk (label : Label) (children : List Node)

namespace Node

/-- All that a node is apart from its children. -/
def label : Node → Label
  | .mk label _ => label

/-- The children of a node, tokens included. -/
def children : Node → List Node
  | .mk _ children => children

/-- What kind of construct a node is. -/
def kind (n : Node) : String := n.label.kind

/-- Whether a node is more than a token. -/
def named (n : Node) : Bool := n.label.named

/-- The field under which the parent holds a node. -/
def field (n : Node) : Option String := n.label.field

/-- The site of a node. -/
def site (n : Node) : Site :=
  .ofPoints n.label.span.startPoint n.label.span.endPoint

/-- Whether a node is a comment. -/
def isComment (n : Node) : Bool := n.kind == "comment"

/-- The children that are more than tokens. -/
def namedChildren (n : Node) : List Node :=
  n.children.filter (·.named)

/-- The first child held under a field. -/
def child? (n : Node) (field : String) : Option Node :=
  n.children.find? (·.field == some field)

/-- The first child of a kind. -/
def findKind? (n : Node) (kind : String) : Option Node :=
  n.children.find? (·.kind == kind)

/-- Leaves out the first node of a list that is held under a field. -/
def without (field : String) (nodes : List Node) : List Node :=
  nodes.eraseP (·.field == some field)

/-- Leaves out the comments of a list. -/
def dropComments (nodes : List Node) : List Node :=
  nodes.filter (!·.isComment)

/-! ## Bodies -/

/-- The node that holds the statements of a scope, if they have one of their own. -/
def body? (n : Node) : Option Node :=
  (n.child? "body" <|> n.findKind? "body_statement") <|> n.findKind? "block_body"

/-- The children of a node that are no part of its header. -/
def beyondHeader (n : Node) : List Node :=
  without "parameters" (without "value" (without "superclass" (without "name" n.children)))

/-- The node whose children are the statements of a scope. -/
def statementHolder (n : Node) : Node :=
  n.body?.getD n

/-- The statements of a scope, in document order. -/
def statements (n : Node) : List Node :=
  match n.body? with
  | some body => dropComments body.namedChildren
  | none =>
    n.beyondHeader.filter fun c => c.named && !c.isComment && c.kind != "block_parameters"

/-! ## Sizes -/

mutual

/-- How many nodes a tree has. -/
def size : Node → Nat
  | .mk _ children => sizeAll children + 1

/-- How many nodes the trees of a list have. -/
def sizeAll : List Node → Nat
  | [] => 0
  | n :: rest => size n + sizeAll rest

end

theorem size_eq (n : Node) : n.size = sizeAll n.children + 1 := by
  cases n; simp [size, children]

theorem size_pos (n : Node) : 0 < n.size := by
  rw [size_eq]; omega

theorem sizeAll_le_of_sublist {xs ys : List Node} (h : xs.Sublist ys) :
    sizeAll xs ≤ sizeAll ys := by
  induction h with
  | slnil => simp
  | cons _ _ ih => simp only [sizeAll]; omega
  | cons_cons _ _ ih => simp only [sizeAll]; omega

theorem size_le_of_mem {n : Node} {ns : List Node} (h : n ∈ ns) : n.size ≤ sizeAll ns := by
  have := sizeAll_le_of_sublist (List.singleton_sublist.mpr h)
  simpa [sizeAll] using this

theorem sizeAll_namedChildren_lt (n : Node) : sizeAll n.namedChildren < n.size := by
  have : n.namedChildren.Sublist n.children := List.filter_sublist
  have := sizeAll_le_of_sublist this
  rw [size_eq]; omega

theorem sizeAll_dropComments_le (ns : List Node) : sizeAll (dropComments ns) ≤ sizeAll ns :=
  sizeAll_le_of_sublist List.filter_sublist

theorem size_child_lt {n c : Node} {field : String} (h : n.child? field = some c) :
    c.size < n.size := by
  have := size_le_of_mem (List.mem_of_find?_eq_some h)
  rw [size_eq n]; omega

theorem size_findKind_lt {n c : Node} {kind : String} (h : n.findKind? kind = some c) :
    c.size < n.size := by
  have := size_le_of_mem (List.mem_of_find?_eq_some h)
  rw [size_eq n]; omega

/-- The child held under a field, together with all others, fits into the children. -/
theorem size_add_sizeAll_without {ns : List Node} {c : Node} {field : String}
    (h : ns.find? (·.field == some field) = some c) :
    c.size + sizeAll (without field ns) = sizeAll ns := by
  induction ns with
  | nil => simp at h
  | cons n rest ih =>
    by_cases hn : n.field == some field
    · simp [List.find?, hn] at h
      subst h
      simp [without, List.eraseP, hn, sizeAll]
    · simp [List.find?, hn] at h
      have := ih h
      simp only [without, List.eraseP, hn, cond_false, sizeAll] at this ⊢
      omega

theorem without_sublist (field : String) (ns : List Node) : (without field ns).Sublist ns :=
  List.eraseP_sublist

theorem size_body_lt {n b : Node} (h : n.body? = some b) : b.size < n.size := by
  unfold body? at h
  cases h₁ : n.child? "body" with
  | some c =>
    simp [h₁] at h
    exact h ▸ size_child_lt h₁
  | none =>
    cases h₂ : n.findKind? "body_statement" with
    | some c =>
      simp [h₁, h₂] at h
      exact h ▸ size_findKind_lt h₂
    | none =>
      simp [h₁, h₂] at h
      exact size_findKind_lt h

/-- The statements of a scope are smaller than the scope. -/
theorem sizeAll_statements_lt (n : Node) : sizeAll n.statements < n.size := by
  unfold statements
  split
  · next body h =>
    have h₁ := size_body_lt h
    have h₂ := sizeAll_dropComments_le body.namedChildren
    have h₃ := sizeAll_namedChildren_lt body
    omega
  · have : (n.beyondHeader.filter
        fun c => c.named && !c.isComment && c.kind != "block_parameters").Sublist n.children :=
      List.filter_sublist.trans
        ((without_sublist _ _).trans
          ((without_sublist _ _).trans ((without_sublist _ _).trans (without_sublist _ _))))
    have := sizeAll_le_of_sublist this
    rw [size_eq]; omega

end Node

end MethodVisibility
