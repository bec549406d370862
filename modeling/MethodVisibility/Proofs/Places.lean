/-
  Places in a tree.

  Two nodes of a tree may be equal, so a node is told by its `Place`: the positions of the
  children on the way to it from the root. `Node.nodeAt?` gives the node at a place,
  `Node.places` lists the places of a tree in pre-order, each once (`nodup_places`), and
  `Node.nodes` the nodes at these places.

  What a walk takes from a node as a list of children is said here by position: the child
  held under a field (`child?_eq_bind`), the body (`body?_eq_bind`), and the statements of a
  scope without a body (`map_fst_filter_isStatement`).
-/
import Mathlib.Data.List.Induction
import MethodVisibility.Tree.Node

namespace MethodVisibility

/-- The way to a node from the root: the positions of the children that lead to it. -/
abbrev Place := List Nat

namespace Node

/-! ## Induction over trees -/

/-- What holds of a node if it holds of its children holds of every node. -/
theorem induction {motive : Node → Prop}
    (step : ∀ n : Node, (∀ c ∈ n.children, motive c) → motive n) (n : Node) : motive n := by
  refine step n fun c hc => ?_
  exact induction step c
termination_by n.size
decreasing_by
  have := size_le_of_mem hc
  rw [size_eq n]
  omega

/-! ## Places -/

/-- The node at a place. -/
def nodeAt? (n : Node) : Place → Option Node
  | [] => some n
  | i :: rest =>
    match n.children[i]? with
    | none => none
    | some c => c.nodeAt? rest

@[simp] theorem nodeAt?_nil (n : Node) : n.nodeAt? [] = some n := rfl

theorem nodeAt?_cons {n c : Node} {i : Nat} (h : n.children[i]? = some c) (rest : Place) :
    n.nodeAt? (i :: rest) = c.nodeAt? rest := by
  simp [nodeAt?, h]

mutual

/-- The places of a tree in pre-order. -/
def places : Node → List Place
  | .mk _ children => [] :: placesFrom 0 children

/-- The places below children, the first of which stands at position `i`. -/
def placesFrom (i : Nat) : List Node → List Place
  | [] => []
  | c :: rest => (places c).map (i :: ·) ++ placesFrom (i + 1) rest

end

mutual

/-- The nodes of a tree in pre-order. -/
def nodes : Node → List Node
  | .mk label children => .mk label children :: nodesAll children

/-- The nodes of several trees. -/
def nodesAll : List Node → List Node
  | [] => []
  | c :: rest => nodes c ++ nodesAll rest

end

theorem placesFrom_eq (i : Nat) (cs : List Node) :
    placesFrom i cs = (cs.zipIdx i).flatMap fun x => x.1.places.map (x.2 :: ·) := by
  induction cs generalizing i with
  | nil => rfl
  | cons c rest ih => rw [placesFrom, ih, List.zipIdx_cons, List.flatMap_cons]

theorem places_eq (n : Node) :
    n.places = [] :: n.children.zipIdx.flatMap fun x => x.1.places.map (x.2 :: ·) := by
  cases n with
  | mk label children => rw [places, placesFrom_eq]; rfl

theorem nodesAll_eq (cs : List Node) : nodesAll cs = cs.flatMap nodes := by
  induction cs with
  | nil => rfl
  | cons c rest ih => rw [nodesAll, ih, List.flatMap_cons]

theorem nodes_eq (n : Node) : n.nodes = n :: n.children.flatMap nodes := by
  cases n with
  | mk label children => rw [nodes, nodesAll_eq]; rfl

theorem mem_nodes_self (n : Node) : n ∈ n.nodes := by
  rw [nodes_eq]
  exact List.mem_cons_self

theorem mem_nodes_of_mem_children {n c v : Node} (hc : c ∈ n.children) (hv : v ∈ c.nodes) :
    v ∈ n.nodes := by
  rw [nodes_eq]
  exact List.mem_cons_of_mem _ (List.mem_flatMap.mpr ⟨c, hc, hv⟩)

/-- No place is listed twice. -/
theorem nodup_places (n : Node) : n.places.Nodup := by
  induction n using Node.induction with
  | step n ih =>
    have hfrom : ∀ (cs : List Node) (i : Nat), (∀ c ∈ cs, c.places.Nodup) →
        (placesFrom i cs).Nodup ∧ ∀ p ∈ placesFrom i cs, ∃ j rest, i ≤ j ∧ p = j :: rest := by
      intro cs
      induction cs with
      | nil => intro i _; exact ⟨List.nodup_nil, by simp [placesFrom]⟩
      | cons c rest ihrest =>
        intro i hcs
        obtain ⟨hnodup, hlater⟩ := ihrest (i + 1) fun d hd => hcs d (List.mem_cons_of_mem _ hd)
        have hc : ((places c).map (i :: ·)).Nodup := by
          refine List.Pairwise.map (i :: ·) ?_ (hcs c List.mem_cons_self)
          intro p q hpq heq
          exact hpq (List.cons.inj heq).2
        refine ⟨?_, ?_⟩
        · rw [placesFrom, List.nodup_append]
          refine ⟨hc, hnodup, ?_⟩
          -- a place below this child starts with `i`, one below a later child with more
          intro p hp q hq hpq
          obtain ⟨p', _, rfl⟩ := List.mem_map.mp hp
          obtain ⟨j, rest', hj, rfl⟩ := hlater q hq
          have := (List.cons.inj hpq).1
          omega
        · intro p hp
          rw [placesFrom] at hp
          rcases List.mem_append.mp hp with hp | hp
          · obtain ⟨p', _, rfl⟩ := List.mem_map.mp hp
            exact ⟨i, p', Nat.le_refl i, rfl⟩
          · obtain ⟨j, rest', hj, rfl⟩ := hlater p hp
            exact ⟨j, rest', by omega, rfl⟩
    obtain ⟨hnodup, hcons⟩ := hfrom n.children 0 ih
    rw [places_eq, ← placesFrom_eq, List.nodup_cons]
    refine ⟨?_, hnodup⟩
    intro hnil
    obtain ⟨j, rest, _, hp⟩ := hcons [] hnil
    cases hp

/-! ## Children by position -/

/-- The position of the first child held under a field. -/
def fieldIndex? (n : Node) (field : String) : Option Nat :=
  n.children.findIdx? (·.field == some field)

/-- The position of the node that holds the statements of a scope, if they have one. -/
def bodyIndex? (n : Node) : Option Nat :=
  (n.fieldIndex? "body" <|> n.children.findIdx? (·.kind == "body_statement"))
    <|> n.children.findIdx? (·.kind == "block_body")

theorem child?_eq_bind (n : Node) (field : String) :
    n.child? field = (n.fieldIndex? field).bind (n.children[·]?) :=
  List.find?_eq_bind_findIdx?_getElem?

/-- The child at the position of a field is the child held under it. -/
theorem child?_of_fieldIndex? {n c : Node} {field : String} {i : Nat}
    (hi : n.fieldIndex? field = some i) (hc : n.children[i]? = some c) :
    n.child? field = some c := by
  rw [child?_eq_bind, hi]
  exact hc

theorem exists_of_findIdx? {cs : List Node} {p : Node → Bool} {i : Nat}
    (h : cs.findIdx? p = some i) : ∃ c, cs[i]? = some c := by
  obtain ⟨hlt, _⟩ := List.findIdx?_eq_some_iff_getElem.mp h
  exact ⟨cs[i], List.getElem?_eq_getElem hlt⟩

/-- There is a child at the position of the body. -/
theorem exists_of_bodyIndex? {n : Node} {i : Nat} (h : n.bodyIndex? = some i) :
    ∃ c, n.children[i]? = some c := by
  simp only [bodyIndex?, fieldIndex?, Option.orElse_eq_orElse, Option.orElse_eq_or] at h
  rcases Option.or_eq_some_iff.mp h with h | ⟨_, h⟩
  · rcases Option.or_eq_some_iff.mp h with h | ⟨_, h⟩
    · exact exists_of_findIdx? h
    · exact exists_of_findIdx? h
  · exact exists_of_findIdx? h

theorem body?_eq_bind (n : Node) : n.body? = n.bodyIndex?.bind (n.children[·]?) := by
  have hkind : ∀ kind, n.findKind? kind =
      (n.children.findIdx? (·.kind == kind)).bind (n.children[·]?) :=
    fun kind => List.find?_eq_bind_findIdx?_getElem?
  rw [body?, bodyIndex?, child?_eq_bind, hkind, hkind, fieldIndex?]
  cases h₁ : n.children.findIdx? (·.field == some "body") with
  | some i =>
    obtain ⟨c, hc⟩ := exists_of_findIdx? h₁
    simp [hc]
  | none =>
    cases h₂ : n.children.findIdx? (·.kind == "body_statement") with
    | some i =>
      obtain ⟨c, hc⟩ := exists_of_findIdx? h₂
      simp [hc]
    | none => simp

/-- Leaving out the first node that meets a condition is leaving out a position. -/
theorem eraseP_zipIdx (p : Node → Bool) (cs : List Node) (i : Nat) :
    (cs.zipIdx i).eraseP (p ·.1) =
      (cs.zipIdx i).filter fun x => (cs.findIdx? p).map (· + i) != some x.2 := by
  induction cs generalizing i with
  | nil => rfl
  | cons c rest ih =>
    rw [List.zipIdx_cons]
    by_cases hc : p c = true
    · have hlater : ∀ x ∈ rest.zipIdx (i + 1), (some i != some x.2) = true := by
        intro x hx
        have := List.le_snd_of_mem_zipIdx hx
        simp
        omega
      have herase : ((c, i) :: rest.zipIdx (i + 1)).eraseP (p ·.1) = rest.zipIdx (i + 1) :=
        List.eraseP_cons_of_pos hc
      rw [herase, List.findIdx?_cons, if_pos hc]
      simp only [Option.map_some, Nat.zero_add]
      rw [List.filter_cons_of_neg (by simp), List.filter_eq_self.mpr hlater]
    · have hshift : ((c :: rest).findIdx? p).map (· + i) =
          (rest.findIdx? p).map (· + (i + 1)) := by
        rw [List.findIdx?_cons, if_neg hc, Option.map_map]
        congr 1
        funext k
        simp only [Function.comp]
        omega
      have hhead : ((rest.findIdx? p).map (· + (i + 1)) != some (c, i).2) = true := by
        cases rest.findIdx? p with
        | none => rfl
        | some k => simp; omega
      have herase : ((c, i) :: rest.zipIdx (i + 1)).eraseP (p ·.1) =
          (c, i) :: (rest.zipIdx (i + 1)).eraseP (p ·.1) :=
        List.eraseP_cons_of_neg hc
      rw [herase, hshift, List.filter_cons, if_pos hhead, ih]

/-- The children without the first one held under a field, by position. -/
theorem without_eq (n : Node) (field : String) :
    without field n.children =
      (n.children.zipIdx.filter fun x => n.fieldIndex? field != some x.2).map (·.1) := by
  have h := eraseP_zipIdx (·.field == some field) n.children 0
  have hfield : (n.children.findIdx? (·.field == some field)).map (· + 0) =
      n.fieldIndex? field := by
    rw [fieldIndex?]
    simp
  rw [hfield] at h
  rw [← h, without]
  conv => lhs; rw [← List.zipIdx_map_fst 0 n.children]
  exact List.eraseP_map

/-! ## Statements without a body -/

theorem eraseP_congr {p q : Node × Nat → Bool} {l : List (Node × Nat)}
    (h : ∀ x ∈ l, p x = q x) : l.eraseP p = l.eraseP q := by
  induction l with
  | nil => rfl
  | cons x rest ih =>
    rw [List.eraseP_cons, List.eraseP_cons, h x List.mem_cons_self,
      ih fun y hy => h y (List.mem_cons_of_mem _ hy)]

/-- The child at the position of a field is held under that field. -/
theorem field_of_fieldIndex? {n c : Node} {field : String} {i : Nat}
    (hi : n.fieldIndex? field = some i) (hc : n.children[i]? = some c) :
    c.field = some field := by
  obtain ⟨hlt, hp, _⟩ := List.findIdx?_eq_some_iff_getElem.mp hi
  rw [List.getElem?_eq_getElem hlt] at hc
  cases hc
  simpa using hp

/-- Leaving out the first child under each of several fields, by position. -/
theorem foldl_without_eq (n : Node) {fields : List String} (hfields : fields.Nodup) :
    fields.foldl (fun cs field => without field cs) n.children =
      (n.children.zipIdx.filter fun x =>
        fields.all fun field => n.fieldIndex? field != some x.2).map (·.1) := by
  induction fields using List.reverseRecOn with
  | nil =>
    have hall : (n.children.zipIdx.filter fun x =>
        ([] : List String).all fun field => n.fieldIndex? field != some x.2) =
        n.children.zipIdx := List.filter_eq_self.mpr fun _ _ => rfl
    rw [hall, List.zipIdx_map_fst]
    rfl
  | append_singleton fields field ih =>
    rw [List.nodup_append] at hfields
    obtain ⟨hnodup, _, hne⟩ := hfields
    rw [List.foldl_append, ih hnodup]
    simp only [List.foldl_cons, List.foldl_nil, without, List.all_append, List.all_cons,
      List.all_nil, Bool.and_true]
    rw [List.eraseP_map, List.eraseP_filter, ← List.filter_filter]
    -- the child that goes is under `field`, so none of the other fields has its position
    have hkept : n.children.zipIdx.eraseP (fun x =>
          ((fun c : Node => c.field == some field) ∘ fun x : Node × Nat => x.1) x &&
            fields.all fun f => n.fieldIndex? f != some x.2) =
        n.children.zipIdx.eraseP (fun x => x.1.field == some field) := by
      apply eraseP_congr
      intro x hx
      by_cases hfield : x.1.field = some field
      · have hall : (fields.all fun f => n.fieldIndex? f != some x.2) = true := by
          rw [List.all_eq_true]
          intro f hf
          rw [bne_iff_ne]
          intro hindex
          have hchild := List.mem_zipIdx_iff_getElem?.mp hx
          have := (field_of_fieldIndex? hindex hchild).symm.trans hfield
          exact hne f hf field List.mem_cons_self (Option.some.inj this)
        simp [hall]
      · simp [hfield]
    have hindex : (n.children.findIdx? (·.field == some field)).map (· + 0) =
        n.fieldIndex? field := by
      rw [fieldIndex?]
      simp
    rw [hkept, eraseP_zipIdx (·.field == some field) n.children 0, hindex]

/-- Whether the child at a position is part of the header of its node. -/
def isHeader (n : Node) (i : Nat) : Bool :=
  ["name", "superclass", "value", "parameters"].any fun field => n.fieldIndex? field == some i

/-- Whether a walk looks at a node that stands among others: tokens and comments are passed
    over. -/
def isLookedAt (c : Node) : Bool :=
  c.named && !c.isComment

/-- Whether the child at a position is a statement of a scope that has no body. -/
def isStatement (n : Node) (i : Nat) (c : Node) : Bool :=
  c.isLookedAt && c.kind != "block_parameters" && !n.isHeader i

/-- The statements of a scope without a body, by position. -/
theorem map_fst_filter_isStatement {n : Node} (h : n.body? = none) :
    (n.children.zipIdx.filter fun x => n.isStatement x.2 x.1).map (·.1) = n.statements := by
  have hbeyond : n.beyondHeader =
      (n.children.zipIdx.filter fun x => !n.isHeader x.2).map (·.1) := by
    have hfold : n.beyondHeader = ["name", "superclass", "value", "parameters"].foldl
        (fun cs field => without field cs) n.children := rfl
    rw [hfold, foldl_without_eq n (by decide)]
    congr 1
    apply List.filter_congr
    intro x _
    simp [isHeader, bne]
  rw [statements, h]
  simp only [hbeyond, List.filter_map, List.filter_filter]
  rfl

end Node

end MethodVisibility
