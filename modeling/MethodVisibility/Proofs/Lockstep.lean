/-
  Two walks in step.

  A walk sees of a node what form it has, what is said of it and which tasks it brings. A
  `Bisimulation` is a pair of relations between nodes, one for nodes that are looked at and
  one for nodes that are scopes, under which none of this differs: related nodes say the same,
  and the tasks that they bring are again about related nodes.

  One step keeps two walks in step (`Bisimulation.step`), hence so does a run of any length
  (`Bisimulation.consume`), also one that is left after a number of events. Two trees whose
  roots are related cannot be told apart by walking over them (`Bisimulation.walk_eq`).
-/
import Mathlib.Data.List.Forall2
import MethodVisibility.Walk

namespace MethodVisibility

/-! ## Rulings on directives -/

namespace Context

/-- What is said of a directive call that sets `level`, or why it is rejected. -/
def ruling (ctx : Context) (inSingleton : Bool) (level : Level) (call : Node) :
    Except Rejection (List Output) :=
  (ctx.directiveTargets inSingleton level call).map (ctx.direct inSingleton level call.site)

/-- What a directive takes from a target: what is said of the definition that it is, and the
    name that it gives. -/
def share (ctx : Context) (inSingleton : Bool) : Target → Option Output × Option String
  | .name identifier => (none, some identifier)
  | .definition n => (some (ctx.definition inSingleton n), ctx.name? n)

variable {ctx : Context} {inSingleton : Bool}

/-- A directive is said by what it takes from its targets. -/
theorem direct_eq_of_share {ts us : List Target}
    (h : ts.map (ctx.share inSingleton) = us.map (ctx.share inSingleton)) (level : Level)
    (site : Site) :
    ctx.direct inSingleton level site ts = ctx.direct inSingleton level site us := by
  have hdefinitions : ∀ ts : List Target, ctx.definitions inSingleton ts =
      (ts.map (ctx.share inSingleton)).filterMap (·.1) := by
    intro ts
    rw [definitions, List.filterMap_map]
    congr 1
    funext t
    cases t <;> rfl
  have hnames : ∀ ts : List Target, ctx.targetNames ts =
      (ts.map (ctx.share inSingleton)).filterMap (·.2) := by
    intro ts
    rw [targetNames, List.filterMap_map]
    congr 1
    funext t
    cases t <;> rfl
  cases ts with
  | nil =>
    cases us with
    | nil => rfl
    | cons u us => cases h
  | cons t ts =>
    cases us with
    | nil => cases h
    | cons u us => simp only [direct, hdefinitions, hnames, h]

/-- Readings of arguments that object to the same, or from which a directive takes the same. -/
inductive SameTargets (ctx : Context) (inSingleton : Bool) :
    Except (Objection × Site) (List Target) → Except (Objection × Site) (List Target) → Prop
  | error {objection : Objection × Site} :
      SameTargets ctx inSingleton (.error objection) (.error objection)
  | ok {ts us : List Target}
      (shares : ts.map (ctx.share inSingleton) = us.map (ctx.share inSingleton)) :
      SameTargets ctx inSingleton (.ok ts) (.ok us)

theorem SameTargets.refl (x : Except (Objection × Site) (List Target)) :
    SameTargets ctx inSingleton x x := by
  cases x with
  | error => exact .error
  | ok => exact .ok rfl

/-- Nodes of one kind, text and site give the same name as an argument, if they give one,
    unless they are literals whose parts differ. -/
theorem nameOf_eq_of_parts {n m : Node} (kind : n.kind = m.kind) (text : ctx.text n = ctx.text m)
    (site : n.site = m.site)
    (parts : n.isLiteral = true → n.namedChildren.map (fun c => (c.kind, ctx.text c)) =
      m.namedChildren.map fun c => (c.kind, ctx.text c)) : ctx.nameOf n = ctx.nameOf m := by
  have hliterals : n.isLiteral = m.isLiteral := by rw [Node.isLiteral, Node.isLiteral, kind]
  have hbare : n.isBareWord = m.isBareWord := by rw [Node.isBareWord, Node.isBareWord, kind]
  rw [nameOf, nameOf, symbolName, symbolName, kind, text, hliterals, site]
  by_cases hliteral : m.isLiteral = true
  · have hparts := parts (hliterals.trans hliteral)
    have hany : ∀ cs : List Node, cs.any (·.kind != "string_content") =
        (cs.map fun c => (c.kind, ctx.text c)).any (·.1 != "string_content") := by
      intro cs
      rw [List.any_map]
      rfl
    have htexts : ∀ cs : List Node, cs.map ctx.text =
        (cs.map fun c => (c.kind, ctx.text c)).map (·.2) := by
      intro cs
      rw [List.map_map]
      rfl
    have hspelled : ctx.literalText n = ctx.literalText m := by
      rw [literalText, literalText, hbare, text]
      generalize n.namedChildren = ns, m.namedChildren = ms at hparts
      cases ns with
      | nil =>
        cases ms with
        | nil => rfl
        | cons d ms => cases hparts
      | cons c ns =>
        cases ms with
        | nil => cases hparts
        | cons d ms => simp only [htexts, hparts]
    rw [hany, hany, hparts, hspelled]
  · rw [if_neg hliteral, if_neg hliteral]

theorem namesOf_eq_of_forall₂ {ns ms : List Node}
    (h : List.Forall₂ (fun c d => ctx.nameOf c = ctx.nameOf d) ns ms) :
    ctx.namesOf ns = ctx.namesOf ms := by
  induction h with
  | nil => rfl
  | cons hcd _ ih => rw [namesOf, namesOf, hcd, ih]

/-- Arguments of one kind and site give a directive the same if they give the same name, if
    the elements do where they are lists, and if they are reported alike where they are
    definitions. -/
theorem sameTargets_argument {n m : Node} (kind : n.kind = m.kind) (site : n.site = m.site)
    (name : ctx.nameOf n = ctx.nameOf m)
    (elements : n.isNameList = true → List.Forall₂ (fun c d => ctx.nameOf c = ctx.nameOf d)
      (Node.dropComments n.namedChildren) (Node.dropComments m.namedChildren))
    (definition : ctx.share inSingleton (.definition n) = ctx.share inSingleton (.definition m)) :
    SameTargets ctx inSingleton (ctx.argumentTargets inSingleton n)
      (ctx.argumentTargets inSingleton m) := by
  have hlists : n.isNameList = m.isNameList := by rw [Node.isNameList, Node.isNameList, kind]
  have hshare : [Target.definition n].map (ctx.share inSingleton) =
      [Target.definition m].map (ctx.share inSingleton) := congrArg (fun x => [x]) definition
  rw [argumentTargets, argumentTargets, kind, site, name, ← hlists]
  split
  · exact .ok hshare
  · split
    · split
      · exact .ok hshare
      · exact .error
    · split
      · next hlist =>
        rw [namesOf_eq_of_forall₂ (elements hlist)]
        exact .refl _
      · exact .refl _

theorem sameTargets_arguments {args args' : List Node}
    (h : List.Forall₂ (fun a b => SameTargets ctx inSingleton
      (ctx.argumentTargets inSingleton a) (ctx.argumentTargets inSingleton b)) args args') :
    SameTargets ctx inSingleton (ctx.argumentsTargets inSingleton args)
      (ctx.argumentsTargets inSingleton args') := by
  induction h with
  | nil => exact .ok rfl
  | @cons a b args args' hab _ ih =>
    rw [argumentsTargets, argumentsTargets]
    generalize ctx.argumentTargets inSingleton a = x, ctx.argumentTargets inSingleton b = y at hab
    cases hab with
    | error => exact .error
    | ok shares =>
      generalize ctx.argumentsTargets inSingleton args = x,
        ctx.argumentsTargets inSingleton args' = y at ih
      cases ih with
      | error => exact .error
      | ok rest => exact .ok (by rw [List.map_append, List.map_append, shares, rest])

/-- Calls at one site whose arguments read the same, and which both have a block or both have
    none, are ruled on alike. -/
theorem ruling_eq {n m : Node} (site : n.site = m.site)
    (block : (n.child? "block").isSome = (m.child? "block").isSome)
    (args : List.Forall₂ (fun a b => SameTargets ctx inSingleton
      (ctx.argumentTargets inSingleton a) (ctx.argumentTargets inSingleton b))
      (arguments n) (arguments m)) (level : Level) :
    ctx.ruling inSingleton level n = ctx.ruling inSingleton level m := by
  have htargets : SameTargets ctx inSingleton (ctx.targets inSingleton n)
      (ctx.targets inSingleton m) := by
    rw [targets, targets, block, site]
    split
    · exact .error
    · have hall := sameTargets_arguments args
      generalize arguments n = xs, arguments m = ys at args hall
      cases args with
      | nil => exact .ok rfl
      | @cons a b xs ys _ _ =>
        simp only
        generalize ctx.argumentsTargets inSingleton (a :: xs) = x,
          ctx.argumentsTargets inSingleton (b :: ys) = y at hall
        cases hall with
        | error => exact .error
        | @ok ts us shares =>
          cases ts with
          | nil =>
            cases us with
            | nil => exact .error
            | cons u us => cases shares
          | cons t ts =>
            cases us with
            | nil => cases shares
            | cons u us => exact .ok shares
  rw [ruling, ruling, directiveTargets, directiveTargets, site]
  generalize ctx.targets inSingleton n = x, ctx.targets inSingleton m = y at htargets
  cases htargets with
  | error => rfl
  | ok shares => exact congrArg Except.ok (direct_eq_of_share shares level m.site)

end Context

/-- Calls that are ruled on alike are rejected for the same reason, or accepted and said alike. -/
theorem Context.cases_of_ruling_eq {ctx : Context} {inSingleton : Bool} {level : Level} {n m : Node}
    (h : ctx.ruling inSingleton level n = ctx.ruling inSingleton level m) :
    (∃ rejection, ctx.directiveTargets inSingleton level n = .error rejection ∧
      ctx.directiveTargets inSingleton level m = .error rejection) ∨
    ∃ ts us, ctx.directiveTargets inSingleton level n = .ok ts ∧
      ctx.directiveTargets inSingleton level m = .ok us ∧
      ctx.direct inSingleton level n.site ts = ctx.direct inSingleton level m.site us := by
  unfold ruling at h
  cases hn : ctx.directiveTargets inSingleton level n with
  | error rejection =>
    cases hm : ctx.directiveTargets inSingleton level m with
    | error rejection' =>
      rw [hn, hm] at h
      cases h
      exact .inl ⟨_, rfl, rfl⟩
    | ok us => rw [hn, hm] at h; cases h
  | ok ts =>
    cases hm : ctx.directiveTargets inSingleton level m with
    | error rejection' => rw [hn, hm] at h; cases h
    | ok us =>
      rw [hn, hm] at h
      exact .inr ⟨ts, us, rfl, rfl, Except.ok.inj h⟩

/-! ## Nodes related one by one -/

section Related

variable {R : Node → Node → Prop} {ns ms : List Node} {p : Node → Bool}

/-- A choice that does not tell related nodes apart keeps them related one by one. -/
theorem forall₂_filter (h : List.Forall₂ R ns ms) (hp : ∀ c d, R c d → p c = p d) :
    List.Forall₂ R (ns.filter p) (ms.filter p) := by
  induction h with
  | nil => exact .nil
  | @cons c d ns ms hcd _ ih =>
    rw [List.filter_cons, List.filter_cons, hp c d hcd]
    split
    · exact .cons hcd ih
    · exact ih

theorem forall₂_without (h : List.Forall₂ R ns ms) (hfield : ∀ c d, R c d → c.field = d.field)
    (field : String) : List.Forall₂ R (Node.without field ns) (Node.without field ms) := by
  unfold Node.without
  induction h with
  | nil => exact .nil
  | @cons c d ns ms hcd hrest ih =>
    rw [List.eraseP_cons, List.eraseP_cons, hfield c d hcd]
    cases d.field == some field with
    | true => exact hrest
    | false => exact .cons hcd ih

/-- A search that does not tell related nodes apart finds related nodes. -/
theorem rel_find? (h : List.Forall₂ R ns ms) (hp : ∀ c d, R c d → p c = p d) :
    Option.Rel (fun c d => R c d ∧ p c = true) (ns.find? p) (ms.find? p) := by
  induction h with
  | nil => exact .none
  | @cons c d _ _ hcd _ ih =>
    rw [List.find?_cons, List.find?_cons, ← hp c d hcd]
    cases hc : p c with
    | true => exact .some ⟨hcd, hc⟩
    | false => exact ih

theorem rel_orElse {x y x' y' : Option Node} (h : Option.Rel R x y) (h' : Option.Rel R x' y') :
    Option.Rel R (x <|> x') (y <|> y') := by
  cases h with
  | some node => exact .some node
  | none => exact h'

theorem rel_imp {S : Node → Node → Prop} {x y : Option Node} (h : Option.Rel R x y)
    (hRS : ∀ c d, R c d → S c d) : Option.Rel S x y := by
  cases h with
  | some node => exact .some (hRS _ _ node)
  | none => exact .none

end Related

/-! ## Walks in step -/

section Pairs

variable (ctx : Context) (R S : Node → Node → Prop)

/-- Tasks that are the same up to their nodes. Those that are looked at are related by `R`,
    those that are scopes by `S`; of the holders only the constant that they bind counts. -/
inductive Task.Paired : Task → Task → Prop
  | visit {holder holder' : Option Node} {n m : Node} {statement : Bool}
      (bound : ctx.boundConstant? holder = ctx.boundConstant? holder') (nodes : R n m) :
      Task.Paired (.visit holder n statement) (.visit holder' m statement)
  | openScope {n m : Node} {kind : ScopeKind} {name : Option String} (nodes : S n m) :
      Task.Paired (.openScope n kind name) (.openScope m kind name)
  | enterScope {n m : Node} {kind : ScopeKind} (nodes : S n m) :
      Task.Paired (.enterScope n kind) (.enterScope m kind)
  | closeScope {site : Site} : Task.Paired (.closeScope site) (.closeScope site)

/-- Steps that say the same, leave the same scopes and bring paired tasks. -/
structure Step.Paired (s t : Step) : Prop where
  outputs : s.outputs = t.outputs
  scopes : s.scopes = t.scopes
  next : List.Forall₂ (Task.Paired ctx R S) s.next t.next

/-- Forms under which a walk does the same with two nodes. -/
inductive Form.Paired (n m : Node) : Form → Form → Prop
  | scope {kind : ScopeKind} {name : Option String} (nodes : S n m) :
      Form.Paired n m (.scope kind name) (.scope kind name)
  | definition
      (same : ∀ inSingleton, ctx.definition inSingleton n = ctx.definition inSingleton m) :
      Form.Paired n m .definition .definition
  | directive {level : Level}
      (same : ∀ inSingleton, ctx.ruling inSingleton level n = ctx.ruling inSingleton level m)
      (children : List.Forall₂ (Task.Paired ctx R S) (visitChildren n) (visitChildren m)) :
      Form.Paired n m (.directive level) (.directive level)
  | scopeCall {kind : ScopeKind} {name : Option String} {block block' : Node}
      (blocks : S block block')
      (beside : List.Forall₂ (Task.Paired ctx R S) (visitBesideBlock n) (visitBesideBlock m)) :
      Form.Paired n m (.scopeCall kind name block) (.scopeCall kind name block')
  | word {level : Option Level} (site : n.site = m.site) :
      Form.Paired n m (.word level) (.word level)
  | plain (children : List.Forall₂ (Task.Paired ctx R S) (visitChildren n) (visitChildren m)) :
      Form.Paired n m .plain .plain

/-- Relations between nodes that are looked at and between nodes that are scopes, under which
    a walk does the same with related nodes and comes to related nodes again. -/
structure Bisimulation : Prop where
  form {n m : Node} {holder holder' : Option Node}
    (bound : ctx.boundConstant? holder = ctx.boundConstant? holder') (nodes : R n m) :
    Form.Paired ctx R S n m (ctx.form holder n) (ctx.form holder' m)
  site {n m : Node} (nodes : S n m) : n.site = m.site
  statements {n m : Node} (nodes : S n m) :
    List.Forall₂ (Task.Paired ctx R S) (visits n.statementHolder n.statements true)
      (visits m.statementHolder m.statements true)

end Pairs

variable {ctx : Context} {R S : Node → Node → Prop}

/-- Looking at nodes in order is paired if the nodes are and their holders bind the same. -/
theorem visits_paired {holder holder' : Node} {ns ms : List Node} {statement : Bool}
    (bound : ctx.boundConstant? (some holder) = ctx.boundConstant? (some holder'))
    (nodes : List.Forall₂ R (Node.dropComments ns) (Node.dropComments ms)) :
    List.Forall₂ (Task.Paired ctx R S) (visits holder ns statement)
      (visits holder' ms statement) := by
  unfold visits
  rw [List.forall₂_map_left_iff, List.forall₂_map_right_iff]
  exact nodes.imp fun _ _ h => .visit bound h

theorem blockScope?_eq_of_receiver {n m : Node} (callee : ctx.callee n = ctx.callee m)
    (receiver : Option.Rel (fun c d => ctx.text c = ctx.text d) (n.child? "receiver")
      (m.child? "receiver")) : ctx.blockScope? n = ctx.blockScope? m := by
  rw [Context.blockScope?, Context.blockScope?, callee]
  generalize n.child? "receiver" = x, m.child? "receiver" = y at receiver
  cases receiver with
  | none => rfl
  | some text => simp only [text]

/-- Calls whose callee, receiver and block are alike, which are ruled on alike and bring paired
    tasks, have forms under which a walk does the same. -/
theorem callForm_paired {n m : Node} {holder holder' : Option Node}
    (bound : ctx.boundConstant? holder = ctx.boundConstant? holder')
    (callee : ctx.callee n = ctx.callee m)
    (receiver : Option.Rel (fun c d => ctx.text c = ctx.text d) (n.child? "receiver")
      (m.child? "receiver"))
    (block : Option.Rel S (n.child? "block") (m.child? "block"))
    (ruling : ∀ inSingleton level,
      ctx.ruling inSingleton level n = ctx.ruling inSingleton level m)
    (children : List.Forall₂ (Task.Paired ctx R S) (visitChildren n) (visitChildren m))
    (beside : List.Forall₂ (Task.Paired ctx R S) (visitBesideBlock n) (visitBesideBlock m)) :
    Form.Paired ctx R S n m (ctx.callForm holder n) (ctx.callForm holder' m) := by
  rw [Context.callForm, Context.callForm, callee, blockScope?_eq_of_receiver callee receiver,
    bound]
  generalize n.child? "receiver" = x, m.child? "receiver" = y at receiver
  generalize n.child? "block" = x, m.child? "block" = y at block
  cases receiver <;> cases Level.ofWord? (ctx.callee m)
  case none.some level =>
    exact .directive (fun inSingleton => ruling inSingleton level) children
  -- no directive: the block decides, and what the call makes of it
  all_goals
    cases block with
    | none => exact .plain children
    | some blocks =>
      cases ctx.blockScope? m with
      | none => exact .plain children
      | some kind => exact .scopeCall blocks beside

/-- Nodes of one kind, name, text and site have forms under which a walk does the same, if they
    are related where they are scopes, reported alike where they are definitions, and call alike
    or bring paired tasks elsewhere. -/
theorem form_paired {n m : Node} {holder holder' : Option Node} (kind : n.kind = m.kind)
    (name : ctx.name? n = ctx.name? m) (text : ctx.text n = ctx.text m)
    (site : n.site = m.site)
    (scope : n.kind ∈ ["class", "module", "singleton_class"] → S n m)
    (definition : ∀ inSingleton, ctx.definition inSingleton n = ctx.definition inSingleton m)
    (call : n.isDefinition = false → n.isCall = true →
      Form.Paired ctx R S n m (ctx.callForm holder n) (ctx.callForm holder' m))
    (children : n.isDefinition = false →
      List.Forall₂ (Task.Paired ctx R S) (visitChildren n) (visitChildren m)) :
    Form.Paired ctx R S n m (ctx.form holder n) (ctx.form holder' m) := by
  have hdefinitions : n.isDefinition = m.isDefinition := by
    rw [Node.isDefinition, Node.isDefinition, kind]
  have hcalls : n.isCall = m.isCall := by rw [Node.isCall, Node.isCall, kind]
  rw [Context.form, Context.form, ← kind, ← hdefinitions, ← hcalls, name, text]
  split
  · next htype =>
    rw [Bool.or_eq_true, decide_eq_true_eq, decide_eq_true_eq] at htype
    refine .scope (scope ?_)
    rcases htype with htype | htype <;> simp [htype]
  · split
    · next hsingleton => exact .scope (scope (by simp [hsingleton]))
    · split
      · exact .definition definition
      · next hdefinition =>
        have hopen : n.isDefinition = false := by simpa using hdefinition
        split
        · next hcall => exact call hopen hcall
        · split
          · exact .word site
          · exact .plain (children hopen)

namespace Bisimulation

theorem visit (h : Bisimulation ctx R S) (scopes : List ScopeKind) {holder holder' : Option Node}
    {n m : Node} (statement : Bool)
    (bound : ctx.boundConstant? holder = ctx.boundConstant? holder') (nodes : R n m) :
    Step.Paired ctx R S (ctx.visit scopes holder n statement)
      (ctx.visit scopes holder' m statement) := by
  have hform := h.form bound nodes
  unfold Context.visit
  generalize ctx.form holder n = f, ctx.form holder' m = f' at hform
  cases hform with
  | scope nodes => exact ⟨rfl, rfl, .cons (.openScope nodes) .nil⟩
  | definition same => exact ⟨congrArg (fun o => [o]) (same _), rfl, .nil⟩
  | @directive level same children =>
    rcases Context.cases_of_ruling_eq (same (inSingletonBody scopes)) with
      ⟨rejection, hn, hm⟩ | ⟨ts, us, hn, hm, hsaid⟩
    · simp only [hn, hm]
      exact ⟨rfl, rfl, children⟩
    · simp only [hn, hm]
      exact ⟨hsaid, rfl, .nil⟩
  | scopeCall blocks beside =>
    exact ⟨rfl, rfl, List.rel_append beside (.cons (.openScope blocks) .nil)⟩
  | @word level site =>
    cases level with
    | none => exact ⟨rfl, rfl, .nil⟩
    | some level => exact ⟨by rw [site], rfl, .nil⟩
  | plain children => exact ⟨rfl, rfl, children⟩

/-- One step keeps two walks in step. -/
theorem step (h : Bisimulation ctx R S) (scopes : List ScopeKind) {t t' : Task}
    (tasks : Task.Paired ctx R S t t') :
    Step.Paired ctx R S (ctx.step scopes t) (ctx.step scopes t') := by
  cases tasks with
  | visit bound nodes => exact h.visit scopes _ bound nodes
  | openScope nodes =>
    exact ⟨by simp only [Context.step, h.site nodes], rfl, .cons (.enterScope nodes) .nil⟩
  | enterScope nodes =>
    refine ⟨rfl, rfl, List.rel_append (h.statements nodes) ?_⟩
    rw [h.site nodes]
    exact .cons .closeScope .nil
  | closeScope => exact ⟨rfl, rfl, .nil⟩

/-- Walks with paired tasks say the same and end with the same scopes, wherever they are
    left. -/
theorem consume (h : Bisimulation ctx R S) (limit : Option Nat) (scopes : List ScopeKind)
    {tasks tasks' : List Task} (pending : List.Forall₂ (Task.Paired ctx R S) tasks tasks')
    (said : Array Output) :
    (Walker.consume ctx limit ⟨scopes, tasks, said⟩).said =
        (Walker.consume ctx limit ⟨scopes, tasks', said⟩).said ∧
      (Walker.consume ctx limit ⟨scopes, tasks, said⟩).scopes =
        (Walker.consume ctx limit ⟨scopes, tasks', said⟩).scopes := by
  cases pending with
  | nil => exact ⟨rfl, rfl⟩
  | @cons t t' rest rest' task pending =>
    rw [Walker.consume, Walker.consume]
    split
    · exact ⟨rfl, rfl⟩
    · have hstep := h.step scopes task
      simp only [← hstep.outputs, ← hstep.scopes]
      exact h.consume _ _ (List.rel_append hstep.next pending) _
termination_by Task.weightAll tasks
decreasing_by
  have := ctx.weightAll_step_lt scopes t
  simp only [Task.weightAll_append, Task.weightAll_cons]
  omega

/-- Trees with related roots cannot be told apart by walking over them, in whatever session
    and for however many events. -/
theorem walk_eq (h : Bisimulation ctx R S) (s : Session) (limit : Option Nat)
    {holder holder' : Option Node} {root root' : Node}
    (bound : ctx.boundConstant? holder = ctx.boundConstant? holder') (nodes : R root root') :
    s.walk ctx limit holder root = s.walk ctx limit holder' root' := by
  have htask : Task.Paired ctx R S (.visit holder root false) (.visit holder' root' false) :=
    .visit bound nodes
  obtain ⟨hsaid, hscopes⟩ := h.consume limit s.scopes (.cons htask .nil) #[]
  simp only [Session.walk, Walker.start, hsaid, hscopes]

end Bisimulation

end MethodVisibility
