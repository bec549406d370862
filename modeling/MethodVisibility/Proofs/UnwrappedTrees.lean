/-
  Trees without some of their wrappers.

  A tree may lose wrappers wherever it holds statements: in a container, in a scope, in the block of
  a call. Two trees are `Unwrapped` if one is the other with some wrappers of one list gone, at as
  many places as you like that are not inside each other; a chain of such steps takes out any
  wrappers (`Relation.ReflTransGen`).

  Walks over such trees do not go in step, since a wrapper takes steps of its own. Nodes that are
  looked at are compared by what a look at them comes to (`VisitsConcur`), and nodes that are
  scopes likewise (`ScopesConcur`). Under these two relations the forms of `Form.Paired` concur
  (`Form.Paired.concur`), and so, by induction over the tree, do unwrapped trees
  (`Unwrapped.agrees`).

  `wrappers_make_no_difference`: the events, the rejections and the resolution are the same.
-/
import MethodVisibility.Proofs.MethodBodies
import MethodVisibility.Proofs.Wrappers

namespace MethodVisibility

/-! ## Forms that concur -/

/-- A look at one node comes to the same as one at the other. -/
def VisitsConcur (ctx : Context) (n m : Node) : Prop :=
  ∀ scopes holder holder' statement, ctx.boundConstant? holder = ctx.boundConstant? holder' →
    Concur ctx scopes [.visit holder n statement] [.visit holder' m statement]

/-- As scopes, the nodes come to the same. -/
def ScopesConcur (ctx : Context) (n m : Node) : Prop :=
  ∀ scopes kind name, Concur ctx scopes [.openScope n kind name] [.openScope m kind name]

/-- The named children of the nodes, as statements, come to the same. -/
def BodiesConcur (ctx : Context) (n m : Node) : Prop :=
  ∀ scopes, Concur ctx scopes (visits n n.namedChildren true) (visits m m.namedChildren true)

variable {ctx : Context} {scopes : List ScopeKind}

namespace Concur

/-- Two tasks that say the same concur if the tasks that they bring do. -/
theorem of_steps {task task' : Task} {said : List Output} {next next' : List Task}
    (hstep : ctx.step scopes task = ⟨said, scopes, next⟩)
    (hstep' : ctx.step scopes task' = ⟨said, scopes, next'⟩)
    (h : Concur ctx scopes next next') : Concur ctx scopes [task] [task'] := by
  obtain ⟨us, vs, hnext, hnext', heq⟩ := h
  exact ⟨_, _, Settles.of_step hstep hnext, Settles.of_step hstep' hnext', by simp [heq]⟩

/-- Scopes concur if their statements do. -/
theorem openScope {n m : Node} {kind : ScopeKind} {name : Option String} (hsite : n.site = m.site)
    (h : Concur ctx (kind :: scopes) (visits n.statementHolder n.statements true)
      (visits m.statementHolder m.statements true)) :
    Concur ctx scopes [.openScope n kind name] [.openScope m kind name] := by
  obtain ⟨us, vs, hn, hm, heq⟩ := h
  refine ⟨_, _, Settles.openScope hn, Settles.openScope hm, ?_⟩
  simp only [audible_append, heq, hsite]

/-- Looks at children that are paired concur. -/
theorem of_paired {holder holder' : Node} {ns ms : List Node} {statement statement' : Bool}
    (h : List.Forall₂ (Task.Paired ctx (VisitsConcur ctx) (ScopesConcur ctx))
      (visits holder ns statement) (visits holder' ms statement')) :
    Concur ctx scopes (visits holder ns statement) (visits holder' ms statement') := by
  unfold visits at h ⊢
  rw [List.forall₂_map_left_iff, List.forall₂_map_right_iff] at h
  generalize Node.dropComments ns = ns, Node.dropComments ms = ms at h
  induction h with
  | nil => exact .nil
  | cons hcd _ ih =>
    cases hcd with
    | visit bound nodes => exact (nodes scopes _ _ _ bound).append ih

end Concur

/-- Nodes whose forms are paired come to the same if what they bring does. -/
theorem Form.Paired.concur {n m : Node} {holder holder' : Option Node} {statement : Bool}
    (h : Form.Paired ctx (VisitsConcur ctx) (ScopesConcur ctx) n m (ctx.form holder n)
      (ctx.form holder' m)) :
    Concur ctx scopes [.visit holder n statement] [.visit holder' m statement] := by
  have hvisit : ∀ holder (n : Node), ctx.step scopes (.visit holder n statement) =
      ctx.visit scopes holder n statement := fun _ _ => rfl
  have hn := hvisit holder n
  have hm := hvisit holder' m
  unfold Context.visit at hn hm
  generalize ctx.form holder n = form, ctx.form holder' m = form' at h hn hm
  cases h with
  | scope nodes => exact Concur.of_steps hn hm (nodes _ _ _)
  | definition same =>
    rw [same] at hn
    exact Concur.of_steps hn hm .nil
  | @directive level same children =>
    simp only at hn hm
    rcases Context.cases_of_ruling_eq (same (inSingletonBody scopes)) with
      ⟨rejection, hreadn, hreadm⟩ | ⟨ts, us, hreadn, hreadm, hsaid⟩
    · rw [hreadn] at hn
      rw [hreadm] at hm
      exact Concur.of_steps hn hm (.of_paired children)
    · rw [hreadn] at hn
      rw [hreadm] at hm
      simp only [hsaid] at hn
      exact Concur.of_steps hn hm .nil
  | scopeCall blocks beside =>
    exact Concur.of_steps hn hm ((Concur.of_paired beside).append (blocks _ _ _))
  | @word level site =>
    cases level with
    | none => exact Concur.of_steps hn hm .nil
    | some level =>
      rw [site] at hn
      exact Concur.of_steps hn hm .nil
  | plain children => exact Concur.of_steps hn hm (.of_paired children)

/-! ## Trees that have lost wrappers -/

namespace Context

/-- The statements of the one scope are those of the other without some wrappers. -/
structure UnwrapsScope (ctx : Context) (n m : Node) : Prop where
  statements : Relation.ReflTransGen ctx.Unwraps n.statements m.statements
  left : ctx.boundConstant? (some n.statementHolder) = none
  right : ctx.boundConstant? (some m.statementHolder) = none

end Context

/-- Trees of which one is the other with some wrappers gone, in lists of statements that are not
    inside each other. A parser puts no container in the place of arguments, and no class in the
    place of arguments or of a body. -/
inductive Unwrapped (ctx : Context) : Node → Node → Prop
  | within {n m : Node} (face : n.face = m.face)
      (children : List.Forall₂ (Unwrapped ctx) n.children m.children) : Unwrapped ctx n m
  | container {n m : Node} (face : n.face = m.face) (kind : n.isContainer = true)
      (arguments : n.field ≠ some "arguments")
      (children : Relation.ReflTransGen ctx.Unwraps (Node.dropComments n.namedChildren)
        (Node.dropComments m.namedChildren))
      (block : n.field = some "block" → ctx.UnwrapsScope n m) : Unwrapped ctx n m
  | scope {n m : Node} (face : n.face = m.face) (kind : n.isScope = true)
      (arguments : n.field ≠ some "arguments") (body : n.field ≠ some "body")
      (name : ctx.name? n = ctx.name? m) (scope : ctx.UnwrapsScope n m) : Unwrapped ctx n m

/-- What a walk makes of the nodes is the same, in each of the roles that they can have. -/
structure Agrees (ctx : Context) (n m : Node) : Prop where
  visit : VisitsConcur ctx n m
  scope : n.isScope = true ∨ n.field = some "block" → ScopesConcur ctx n m
  body : n.field = some "body" ∨ n.isBody = true → BodiesConcur ctx n m

namespace Unwrapped

variable {n m : Node}

theorem face_eq (h : Unwrapped ctx n m) : n.face = m.face := by
  cases h with
  | within face _ => exact face
  | container face _ _ _ _ => exact face
  | scope face _ _ _ _ _ => exact face

theorem kind_of_isContainer (h : n.isContainer = true ∨ n.isScope = true) :
    n.isDefinition = false ∧ n.isNameList = false ∧ n.isLiteral = false ∧
      n.kind ≠ "simple_symbol" := by
  simp only [Node.isContainer, Node.isScope, List.mem_cons, List.not_mem_nil, or_false,
    decide_eq_true_eq] at h
  rcases h with (h | h | h | h | h | h | h | h | h | h | h) | (h | h | h) <;>
    simp [Node.isDefinition, Node.isNameList, Node.isLiteral, h]

/-- A container or a scope gives a directive no name. -/
theorem nameOf_of_isContainer (h : n.isContainer = true ∨ n.isScope = true) :
    ctx.nameOf n = .error (.unsupported n.kind, n.site) := by
  obtain ⟨-, -, hliteral, hsymbol⟩ := kind_of_isContainer h
  simp [Context.nameOf, hliteral, hsymbol]

theorem argumentTargets_of_isContainer (h : n.isContainer = true ∨ n.isScope = true)
    (inSingleton : Bool) :
    ctx.argumentTargets inSingleton n = .error (.unsupported n.kind, n.site) := by
  obtain ⟨hdefinition, hlist, -, -⟩ := kind_of_isContainer h
  have hkind : n.kind ≠ "method" ∧ n.kind ≠ "singleton_method" := by
    simpa [Node.isDefinition] using hdefinition
  rw [Context.argumentTargets, if_neg hkind.1, if_neg hkind.2, if_neg (by simp [hlist]),
    nameOf_of_isContainer h]
  rfl

/-- Nodes inside which wrappers are gone match. -/
theorem matched_of_within (face : n.face = m.face)
    (children : List.Forall₂ (Unwrapped ctx) n.children m.children) :
    Matched (Unwrapped ctx) n m :=
  ⟨face, children.imp fun _ _ hcd => ⟨hcd.face_eq, hcd⟩⟩

theorem nameOf_eq (h : Unwrapped ctx n m) : ctx.nameOf n = ctx.nameOf m := by
  have hopen : n.isContainer = true ∨ n.isScope = true → n.face = m.face →
      ctx.nameOf n = ctx.nameOf m := by
    intro hn face
    have hm : m.isContainer = true ∨ m.isScope = true := by
      rwa [Node.isContainer, Node.isScope, ← Node.kind_of_face face]
    rw [nameOf_of_isContainer hn, nameOf_of_isContainer hm, Node.kind_of_face face,
      Node.site_of_face face]
  cases h with
  | within face children => exact (matched_of_within face children).nameOf_eq
  | container face kind _ _ _ => exact hopen (.inl kind) face
  | scope face kind _ _ _ _ => exact hopen (.inr kind) face

/-- Wrappers inside an argument make no difference to a directive. -/
theorem sameTargets (h : Unwrapped ctx n m) (inSingleton : Bool) :
    Context.SameTargets ctx inSingleton (ctx.argumentTargets inSingleton n)
      (ctx.argumentTargets inSingleton m) := by
  have hopen : n.isContainer = true ∨ n.isScope = true → n.face = m.face →
      Context.SameTargets ctx inSingleton (ctx.argumentTargets inSingleton n)
        (ctx.argumentTargets inSingleton m) := by
    intro hn face
    have hm : m.isContainer = true ∨ m.isScope = true := by
      rwa [Node.isContainer, Node.isScope, ← Node.kind_of_face face]
    rw [argumentTargets_of_isContainer hn, argumentTargets_of_isContainer hm,
      Node.kind_of_face face, Node.site_of_face face]
    exact .error
  cases h with
  | within face children =>
    have hmatched := matched_of_within face children
    refine Context.sameTargets_argument (Node.kind_of_face face) (Node.site_of_face face)
      hmatched.nameOf_eq (fun _ => ?_) ?_
    · exact (Matched.dropComments hmatched.namedChildren).imp fun c d hcd => hcd.2.nameOf_eq
    · simp only [Context.share, hmatched.definition_eq, hmatched.name?_eq]
  | container face kind _ _ _ => exact hopen (.inl kind) face
  | scope face kind _ _ _ _ => exact hopen (.inr kind) face

/-- The arguments of a call are related one by one. -/
theorem forall₂_arguments (h : Unwrapped ctx n m) (hfield : n.field = some "arguments") :
    List.Forall₂ (Unwrapped ctx) (Node.dropComments n.namedChildren)
      (Node.dropComments m.namedChildren) := by
  cases h with
  | within face children =>
    have hmatched := matched_of_within face children
    exact (Matched.dropComments hmatched.namedChildren).imp fun c d hcd => hcd.2
  | container _ _ arguments _ _ => exact absurd hfield arguments
  | scope _ _ arguments _ _ _ => exact absurd hfield arguments

end Unwrapped

/-! ## Calls and scopes whose children agree -/

/-- Children that are unwrapped and of which a walk makes the same. -/
def Follows (ctx : Context) (c d : Node) : Prop :=
  Unwrapped ctx c d ∧ Agrees ctx c d

namespace Matched

variable {n m : Node}

theorem ruling_eq (h : Matched (Follows ctx) n m) (inSingleton : Bool) (level : Level) :
    ctx.ruling inSingleton level n = ctx.ruling inSingleton level m := by
  have hblock := h.rel_child? "block"
  have hargs := h.rel_child? "arguments"
  refine Context.ruling_eq (Node.site_of_face h.face) ?_ ?_ level
  · generalize n.child? "block" = x, m.child? "block" = y at hblock
    cases hblock with
    | none => rfl
    | some _ => rfl
  · rw [Context.arguments, Context.arguments]
    generalize n.child? "arguments" = x, m.child? "arguments" = y at hargs
    cases hargs with
    | none => exact .nil
    | some hlist =>
      obtain ⟨-, hlist, hfield⟩ := hlist
      exact (hlist.1.forall₂_arguments hfield).imp fun a b hab => hab.sameTargets inSingleton

theorem visits_paired {holder holder' : Node} {ns ms : List Node} {statement : Bool}
    (hbound : ctx.boundConstant? (some holder) = ctx.boundConstant? (some holder'))
    (h : List.Forall₂ (fun c d => c.face = d.face ∧ Follows ctx c d) ns ms) :
    List.Forall₂ (Task.Paired ctx (VisitsConcur ctx) (ScopesConcur ctx))
      (visits holder ns statement) (visits holder' ms statement) :=
  MethodVisibility.visits_paired hbound
    ((Matched.dropComments h).imp fun _ _ hcd => hcd.2.2.visit)

theorem visitChildren_paired (h : Matched (Follows ctx) n m) :
    List.Forall₂ (Task.Paired ctx (VisitsConcur ctx) (ScopesConcur ctx))
      (visitChildren n) (visitChildren m) := by
  have hcontainer : n.isContainer = m.isContainer := by
    rw [Node.isContainer, Node.isContainer, Node.kind_of_face h.face]
  rw [visitChildren, visitChildren, hcontainer]
  exact visits_paired h.boundConstant?_eq h.namedChildren

theorem visitBesideBlock_paired (h : Matched (Follows ctx) n m) :
    List.Forall₂ (Task.Paired ctx (VisitsConcur ctx) (ScopesConcur ctx))
      (visitBesideBlock n) (visitBesideBlock m) := by
  refine visits_paired h.boundConstant?_eq ?_
  exact forall₂_filter (Matched.without h.children "block") fun _ _ hcd =>
    Node.named_of_face hcd.1

theorem rel_body? (h : Matched (Follows ctx) n m) :
    Option.Rel (fun b d => b.face = d.face ∧ Follows ctx b d ∧ BodiesConcur ctx b d) n.body?
      m.body? := by
  refine rel_orElse (rel_orElse ?_ ?_) ?_
  · refine rel_imp (h.rel_child? "body") ?_
    rintro b d ⟨hface, hbd, hfield⟩
    exact ⟨hface, hbd, hbd.2.body (.inl hfield)⟩
  · refine rel_imp (h.rel_findKind? "body_statement") ?_
    rintro b d ⟨hface, hbd, hkind⟩
    exact ⟨hface, hbd, hbd.2.body (.inr (by simp [Node.isBody, hkind]))⟩
  · refine rel_imp (h.rel_findKind? "block_body") ?_
    rintro b d ⟨hface, hbd, hkind⟩
    exact ⟨hface, hbd, hbd.2.body (.inr (by simp [Node.isBody, hkind]))⟩

/-- Scopes whose children agree come to the same. -/
theorem scopesConcur (h : Matched (Follows ctx) n m) : ScopesConcur ctx n m := by
  intro scopes kind name
  refine Concur.openScope (Node.site_of_face h.face) ?_
  have hbody := h.rel_body?
  rw [Node.statementHolder, Node.statementHolder, Node.statements, Node.statements]
  generalize n.body? = x, m.body? = y at hbody
  cases hbody with
  | some hbody =>
    simp only [Option.getD_some]
    rw [visits_dropComments, visits_dropComments]
    exact hbody.2.2 _
  | none =>
    have hbeyond : List.Forall₂ (fun c d => c.face = d.face ∧ Follows ctx c d) n.beyondHeader
        m.beyondHeader :=
      Matched.without (Matched.without (Matched.without (Matched.without h.children "name")
        "superclass") "value") "parameters"
    have hstatements := forall₂_filter (p := fun c =>
      c.named && !c.isComment && c.kind != "block_parameters") hbeyond fun c d hcd => by
        rw [Node.isComment, Node.isComment, Node.named_of_face hcd.1, Node.kind_of_face hcd.1]
    exact Concur.of_paired (visits_paired h.boundConstant?_eq hstatements)

/-- Of nodes whose children agree, a walk makes the same. -/
theorem agrees (h : Matched (Follows ctx) n m) : Agrees ctx n m where
  visit := by
    intro scopes holder holder' statement hbound
    have hcall : Form.Paired ctx (VisitsConcur ctx) (ScopesConcur ctx) n m
        (ctx.callForm holder n) (ctx.callForm holder' m) :=
      callForm_paired hbound h.callee_eq (h.rel_text_child? "receiver")
        (rel_imp (h.rel_child? "block") fun _ _ hcd => hcd.2.1.2.scope (.inr hcd.2.2))
        h.ruling_eq h.visitChildren_paired h.visitBesideBlock_paired
    exact (form_paired (Node.kind_of_face h.face) h.name?_eq (Node.text_of_face ctx h.face)
      (Node.site_of_face h.face) (fun _ => h.scopesConcur) h.definition_eq (fun _ _ => hcall)
      fun _ => h.visitChildren_paired).concur
  scope _ := h.scopesConcur
  body _ := fun _ => Concur.of_paired (visits_paired h.boundConstant?_eq h.namedChildren)

end Matched

/-! ## Unwrapped trees agree -/

theorem Context.UnwrapsScope.scopesConcur {n m : Node} (h : ctx.UnwrapsScope n m)
    (hface : n.face = m.face) : ScopesConcur ctx n m :=
  fun _ _ _ => Concur.openScope (Node.site_of_face hface)
    (Context.concur_of_unwraps h.statements h.left h.right)

namespace Unwrapped

theorem kind_of_isScope {n : Node} (h : n.isScope = true) :
    n.kind = "class" ∨ n.kind = "module" ∨ n.kind = "singleton_class" := by
  simpa [Node.isScope] using h

/-- Nodes that are scopes by their own kind are the same scope if they have the same name. -/
theorem exists_form_scope {n m : Node} (kind : n.isScope = true) (face : n.face = m.face)
    (name : ctx.name? n = ctx.name? m) :
    ∃ head : ScopeHead, (∀ holder, ctx.form holder n = .scope head.1 head.2) ∧
      ∀ holder, ctx.form holder m = .scope head.1 head.2 := by
  have hkind := Node.kind_of_face face
  rcases kind_of_isScope kind with h | h | h <;> rw [h] at hkind
  · refine ⟨(.typeBody, ctx.name? n), ?_, ?_⟩ <;> simp [Context.form, h, ← hkind, name]
  · refine ⟨(.typeBody, ctx.name? n), ?_, ?_⟩ <;> simp [Context.form, h, ← hkind, name]
  · refine ⟨(.singletonBody, none), ?_, ?_⟩ <;> simp [Context.form, h, ← hkind]

/-- Of unwrapped trees, a walk makes the same. -/
theorem agrees {n m : Node} (h : Unwrapped ctx n m) : Agrees ctx n m := by
  induction n using Node.induction generalizing m with
  | step n ih =>
    cases h with
    | within face children =>
      have hchildren : List.Forall₂
          (fun c d => (∀ {d}, Unwrapped ctx c d → Agrees ctx c d) ∧ Unwrapped ctx c d)
          n.children m.children :=
        (List.forall₂_and_left _ _).mpr ⟨ih, children⟩
      refine Matched.agrees ⟨face, hchildren.imp ?_⟩
      rintro c d ⟨hagrees, hcd⟩
      exact ⟨hcd.face_eq, hcd, hagrees hcd⟩
    | container face kind arguments children block =>
      have hkind : m.isContainer = true := by
        rwa [Node.isContainer, ← Node.kind_of_face face]
      have hbodies : BodiesConcur ctx n m := by
        intro scopes
        rw [← visits_dropComments n, ← visits_dropComments m]
        exact Context.concur_of_unwraps children (ctx.boundConstant?_of_isContainer kind)
          (ctx.boundConstant?_of_isContainer hkind)
      refine ⟨?_, ?_, fun _ => hbodies⟩
      · intro scopes holder holder' statement _
        have hstep : ∀ (holder : Option Node) (n : Node), n.isContainer = true →
            ctx.step scopes (.visit holder n statement) =
              ⟨[], scopes, visits n n.namedChildren true⟩ := by
          intro holder n hn
          simp [Context.step, Context.visit, ctx.form_of_isContainer hn, visitChildren, hn]
        exact Concur.of_steps (hstep holder n kind) (hstep holder' m hkind) (hbodies scopes)
      · rintro (hscope | hfield)
        · rcases kind_of_isScope hscope with h | h | h <;> simp [Node.isContainer, h] at kind
        · exact (block hfield).scopesConcur face
    | scope face kind arguments body name scope =>
      have hscopes := scope.scopesConcur face
      refine ⟨?_, fun _ => hscopes, ?_⟩
      · intro scopes holder holder' statement _
        obtain ⟨head, hn, hm⟩ := exists_form_scope kind face name
        have hstep : ∀ (holder : Option Node) (c : Node),
            (∀ holder, ctx.form holder c = .scope head.1 head.2) →
            ctx.step scopes (.visit holder c statement) =
              ⟨[], scopes, [.openScope c head.1 head.2]⟩ := by
          intro holder c hc
          simp [Context.step, Context.visit, hc]
        exact Concur.of_steps (hstep holder n hn) (hstep holder' m hm) (hscopes _ _ _)
      · rintro (hfield | hbody)
        · exact absurd hfield body
        · have hcontainer := kind_of_isScope kind
          simp only [Node.isBody, Bool.or_eq_true, beq_iff_eq] at hbody
          rcases hcontainer with hkind | hkind | hkind <;> simp [hkind] at hbody

theorem refl (ctx : Context) (n : Node) : Unwrapped ctx n n := by
  induction n using Node.induction with
  | step n ih =>
    refine .within rfl ?_
    rw [List.forall₂_same]
    exact ih

end Unwrapped

/-! ## Walks over unwrapped trees -/

/-- Tasks that concur say the same events and the same rejections. -/
theorem Concur.exists_outputs {tasks tasks' : List Task} (h : Concur ctx scopes tasks tasks') :
    ∃ us vs, Settles ctx scopes tasks us ∧ Settles ctx scopes tasks' vs ∧
      eventsOf us = eventsOf vs ∧ rejectionsOf us = rejectionsOf vs := by
  obtain ⟨us, vs, hus, hvs, heq⟩ := h
  refine ⟨us, vs, hus, hvs, ?_, ?_⟩
  · rw [← eventsOf_audible, heq, eventsOf_audible]
  · rw [← rejectionsOf_audible, heq, rejectionsOf_audible]

/-- Nothing but events and rejections counts for a resolution. -/
theorem resolveOutputs_eq {us vs : List Output} (hevents : eventsOf us = eventsOf vs)
    (hrejections : rejectionsOf us = rejectionsOf vs) (label : Option String) :
    resolveOutputs us label = resolveOutputs vs label := by
  rw [resolveOutputs, resolveOutputs, items_feed, items_feed, itemsOf, itemsOf, hevents,
    hrejections]

theorem Settles.outputs_eq {holder : Option Node} {root : Node} {us : List Output}
    (h : Settles ctx [.topLevel] [.visit holder root false] us) : ctx.outputs holder root = us := by
  have hend := (h [] #[]).trans (Walker.consume_of_pending_nil ctx rfl)
  rw [List.append_nil] at hend
  simp [Context.outputs, Session.walk, Session.initial, Walker.start, hend]

/-- A call with a block that is neither a directive nor a scope, among statements: whatever the
    scopes are and whatever holds the statements of the block in its place, a walk says the same
    events and rejections of the statements before it, of the call and of the statements after it as
    it says of them with the statements of the block in place of the call. So it does of two lists
    of statements, one of which is the other without some wrappers, inside each other or not. And of
    trees that lose wrappers one after the other, in whatever lists of statements, a walk says the
    same, and the resolution is the same. -/
theorem wrappers_make_no_difference (ctx : Context) :
    (∀ call block : Node, ctx.Transparent call block →
      ∀ (scopes : List ScopeKind) (holder keeper : Node) (before after : List Node),
      ctx.boundConstant? (some keeper) = none →
      ∃ us vs, Settles ctx scopes (visits holder (before ++ call :: after) true) us ∧
        Settles ctx scopes (visits holder before true ++ visits keeper block.statements true ++
          visits holder after true) vs ∧
        eventsOf us = eventsOf vs ∧ rejectionsOf us = rejectionsOf vs) ∧
    (∀ xs ys : List Node, Relation.ReflTransGen ctx.Unwraps xs ys →
      ∀ (scopes : List ScopeKind) (holder : Node), ctx.boundConstant? (some holder) = none →
      ∃ us vs, Settles ctx scopes (visits holder xs true) us ∧
        Settles ctx scopes (visits holder ys true) vs ∧
        eventsOf us = eventsOf vs ∧ rejectionsOf us = rejectionsOf vs) ∧
    ∀ root root' : Node, Relation.ReflTransGen (Unwrapped ctx) root root' →
      ∀ holder : Option Node,
      eventsOf (ctx.outputs holder root) = eventsOf (ctx.outputs holder root') ∧
      rejectionsOf (ctx.outputs holder root) = rejectionsOf (ctx.outputs holder root') ∧
      ∀ label, resolveTree ctx holder root label = resolveTree ctx holder root' label := by
  refine ⟨?_, ?_, ?_⟩
  · intro call block htransparent scopes holder keeper before after hkeeper
    have hwraps : ctx.Wraps call block.statements := .call htransparent
    exact (hwraps.concur_within holder before after hkeeper).exists_outputs
  · intro xs ys h scopes holder hholder
    exact (Context.concur_of_unwraps h hholder hholder).exists_outputs
  · intro root root' h holder
    have hsaid : eventsOf (ctx.outputs holder root) = eventsOf (ctx.outputs holder root') ∧
        rejectionsOf (ctx.outputs holder root) = rejectionsOf (ctx.outputs holder root') := by
      induction h with
      | refl => exact ⟨rfl, rfl⟩
      | tail _ hlast ih =>
        have hvisit := hlast.agrees.visit [.topLevel] holder holder false rfl
        obtain ⟨us, vs, hus, hvs, hevents, hrejections⟩ := hvisit.exists_outputs
        rw [← hus.outputs_eq, ← hvs.outputs_eq] at hevents hrejections
        exact ⟨ih.1.trans hevents, ih.2.trans hrejections⟩
    exact ⟨hsaid.1, hsaid.2, resolveOutputs_eq hsaid.1 hsaid.2⟩

/-- A definition of `y`. -/
def innerMethod : Node :=
  sampleNode "method" none 0 23 [sampleNode "identifier" (some "name") 18 19 []]

/-- A definition of `z`. -/
def laterMethod : Node :=
  sampleNode "method" none 0 23 [sampleNode "identifier" (some "name") 20 21 []]

/-- A `begin` around the definition of `y`. -/
def plainBegin : Node :=
  sampleNode "begin" none 0 23 [innerMethod]

/-- The body of a block: a bare directive and a definition. -/
def plainBody : Node :=
  sampleNode "body_statement" (some "body") 0 23 [sampleNode "identifier" none 0 7 [], plainBegin]

/-- A block with parameters. -/
def plainBlock : Node :=
  sampleNode "do_block" (some "block") 0 23 [
    sampleNode "block_parameters" (some "parameters") 22 23 [], plainBody]

/-- A call with `plainBlock`. -/
def plainCall : Node :=
  sampleNode "call" none 0 23 [sampleNode "identifier" (some "method") 22 23 [], plainBlock]

/-- The body of a class with a definition of `z` at the end. -/
def bodyOf (statements : List Node) : Node :=
  sampleNode "body_statement" (some "body") 0 23 (statements ++ [laterMethod])

/-- A file with a class of this body. -/
def classOf (body : Node) : Node :=
  sampleNode "program" none 0 23 [
    sampleNode "class" none 0 23 [sampleNode "constant" (some "name") 16 17 [], body]]

/-- The class of `plainCall` is resolved as one that has the directive and the definition in place
    of the call. -/
theorem wrappers_make_no_difference_plainCall :
    sampleContext.Transparent plainCall plainBlock ∧
      (∃ us vs,
        Settles sampleContext [.typeBody, .topLevel] (visits plainBlock [plainCall] true) us ∧
        Settles sampleContext [.typeBody, .topLevel] (visits plainBlock plainBlock.statements true)
          vs ∧ eventsOf us = eventsOf vs) ∧
      resolveTree sampleContext none (classOf (bodyOf [plainCall])) none =
        resolveTree sampleContext none
          (classOf (bodyOf [sampleNode "identifier" none 0 7 [], innerMethod])) none := by
  have htransparent : sampleContext.Transparent plainCall plainBlock := by
    refine ⟨rfl, by decide, by decide, rfl, rfl, rfl, ?_, ?_, .inr ⟨_, rfl, rfl, rfl⟩⟩
    · intro c hc _ _
      obtain rfl : c = sampleNode "identifier" (some "method") 22 23 [] := by
        simpa [plainCall, sampleNode, Node.children, Node.without, plainBlock, Node.field,
          Node.label] using hc
      exact Context.quiet_of_step rfl
    · intro c hc hkind
      obtain rfl | rfl : c = sampleNode "block_parameters" (some "parameters") 22 23 [] ∨
          c = plainBody := by
        simpa [plainBlock, sampleNode, Node.namedChildren, Node.children, Node.named,
          Node.label, plainBody] using hc
      · exact Context.quiet_of_step rfl
      · exact absurd hkind (by decide)
  obtain ⟨hcall, hlists, htrees⟩ := wrappers_make_no_difference sampleContext
  refine ⟨htransparent, ?_, ?_⟩
  · obtain ⟨us, vs, hus, hvs, hevents, -⟩ := hcall plainCall plainBlock htransparent
      [.typeBody, .topLevel] plainBlock plainBlock [] [] rfl
    have hnone : visits plainBlock [] true = [] := rfl
    rw [hnone, List.nil_append, List.append_nil] at hvs
    exact ⟨us, vs, hus, hvs, hevents⟩
  · refine (htrees _ _ (.single ?_) none).2.2 none
    -- the call gives way to the directive and the `begin`, and that to the definition
    have hfirst : sampleContext.Unwraps [plainCall, laterMethod]
        [sampleNode "identifier" none 0 7 [], plainBegin, laterMethod] :=
      .mk [] [laterMethod] (.call htransparent)
    have hsecond : sampleContext.Unwraps
        [sampleNode "identifier" none 0 7 [], plainBegin, laterMethod]
        [sampleNode "identifier" none 0 7 [], innerMethod, laterMethod] :=
      .mk [sampleNode "identifier" none 0 7 []] [laterMethod] (.container rfl)
    have hbodies : Unwrapped sampleContext (bodyOf [plainCall])
        (bodyOf [sampleNode "identifier" none 0 7 [], innerMethod]) :=
      .container rfl rfl (by decide) (.tail (.single hfirst) hsecond) fun hfield =>
        absurd hfield (by decide)
    exact .within rfl (.cons (.within rfl (.cons (.refl _ _) (.cons hbodies .nil))) .nil)

end MethodVisibility
