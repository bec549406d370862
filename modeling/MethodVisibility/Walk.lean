/-
  The walk over a syntax tree.

  A walk goes through a tree in document order and says what happens: events, the
  directives it rejects and the definitions it passes over for want of a name. Classes,
  modules, singleton classes and the blocks of certain calls are scopes; definitions
  are not looked into; everything else is as if its children stood in its place.

  The walk keeps its own list of pending tasks, so that the depth of a tree costs no
  stack. `step` does one task: it says something, changes the scopes and puts new tasks
  in front. `Walker.consume` does tasks until none is left or a number of events was
  said; it ends because the pending trees get smaller (`Task.weight`).

  A scope that opens is said before it counts as open, and one that closes is closed
  before that is said. Someone who stops listening between two events sees the scopes
  as they are at that moment.
-/
import MethodVisibility.Directive
import MethodVisibility.Event
import MethodVisibility.Feed

namespace MethodVisibility

/-- Something a walk says. -/
inductive Output where
  | event (event : Event)
  | rejected (rejection : Rejection)
  /-- A definition without a name starts here. -/
  | unnamed (start : Point)
deriving DecidableEq, Repr

namespace Output

/-- The event that is said, if it is one. -/
def event? : Output → Option Event
  | .event e => some e
  | _ => none

/-- The rejection that is said, if it is one. -/
def rejection? : Output → Option Rejection
  | .rejected r => some r
  | _ => none

/-- What a resolution gets to see of an output. -/
def feed : Output → FeedElement
  | .event e => .item (.event e)
  | .rejected r => .aside (.ignoredDirective r.diagnostic)
  | .unnamed start => .aside (.unnamedDefinition start)

/-- What is noted of an output. -/
def note? (o : Output) : Option Note :=
  match o.feed with
  | .item _ => none
  | .aside note => some note

/-- The outputs up to and with the `n`-th event. -/
def takeEvents : Nat → List Output → List Output
  | 0, _ => []
  | _, [] => []
  | n + 1, .event e :: rest => .event e :: takeEvents n rest
  | n + 1, o :: rest => o :: takeEvents (n + 1) rest

/-- For each event, how many rejections have been said by then, if `before` were
    said earlier. -/
def tally (before : Nat) : List Output → List Nat
  | [] => []
  | .event _ :: rest => before :: tally before rest
  | .rejected _ :: rest => tally (before + 1) rest
  | .unnamed _ :: rest => tally before rest

end Output

/-- The events among outputs. -/
def eventsOf (outputs : List Output) : List Event :=
  outputs.filterMap Output.event?

/-- The rejections among outputs. -/
def rejectionsOf (outputs : List Output) : List Rejection :=
  outputs.filterMap Output.rejection?

namespace Node

/-- Whether the children of a node are statements. -/
def isContainer (n : Node) : Bool :=
  n.kind ∈ ["program", "body_statement", "block_body", "do_block", "block", "begin", "then",
    "else", "ensure", "do", "parenthesized_statements"]

/-- Whether a node is a call. -/
def isCall (n : Node) : Bool :=
  n.kind ∈ ["call", "method_call", "command_call"]

end Node

/-! ## What a node is -/

/-- What a node is to a walk. -/
inductive Form where
  /-- A scope of its own. -/
  | scope (kind : ScopeKind) (name : Option String)
  | definition
  /-- A directive call. -/
  | directive (level : Level)
  /-- A call whose block is a scope. -/
  | scopeCall (kind : ScopeKind) (name : Option String) (block : Node)
  /-- A word; one that spells a level is a directive where a statement may stand. -/
  | word (level : Option Level)
  /-- Anything else. -/
  | plain

namespace Context

/-- What a call is. `holder` is the node that holds it. -/
def callForm (ctx : Context) (holder : Option Node) (call : Node) : Form :=
  match call.child? "receiver", Level.ofWord? (ctx.callee call) with
  | none, some level => .directive level
  | _, _ =>
    match call.child? "block", ctx.blockScope? call with
    | some block, some kind =>
      .scopeCall kind (if kind = .typeBody then ctx.boundConstant? holder else none) block
    | _, _ => .plain

/-- What a node is. `holder` is the node that holds it. -/
def form (ctx : Context) (holder : Option Node) (n : Node) : Form :=
  if n.kind = "class" || n.kind = "module" then .scope .typeBody (ctx.name? n)
  else if n.kind = "singleton_class" then .scope .singletonBody none
  else if n.isDefinition then .definition
  else if n.isCall then ctx.callForm holder n
  else if n.kind = "identifier" then .word (Level.ofWord? (ctx.text n))
  else .plain

/-- What is said of a definition. A definition on a receiver of its own is an ordinary
    one inside a singleton body. -/
def definition (ctx : Context) (inSingleton : Bool) (n : Node) : Output :=
  match ctx.name? n with
  | none => .unnamed n.label.span.startPoint
  | some identifier =>
    if n.kind = "singleton_method" && !inSingleton then
      .event (.singletonMethod identifier (some n.site))
    else
      .event (.method identifier (some n.site))

/-- What is said of the definitions among targets, in order. -/
def definitions (ctx : Context) (inSingleton : Bool) (targets : List Target) : List Output :=
  targets.filterMap fun
    | .name _ => none
    | .definition n => some (ctx.definition inSingleton n)

/-- The names that targets give; a definition without a name gives none. -/
def targetNames (ctx : Context) (targets : List Target) : List String :=
  targets.filterMap fun
    | .name identifier => some identifier
    | .definition n => ctx.name? n

/-- What is said of an accepted directive: the definitions among its targets, then the
    directive itself. -/
def direct (ctx : Context) (inSingleton : Bool) (level : Level) (site : Site) :
    List Target → List Output
  | [] => [.event (.bare level (some site))]
  | targets =>
    ctx.definitions inSingleton targets
      ++ [.event (.targeted level (ctx.targetNames targets) (some site))]

end Context

/-! ## Tasks -/

/-- A task of a walk. -/
inductive Task where
  /-- Look at a node, which `holder` holds; `statement` tells whether it stands where a
      statement may stand. -/
  | visit (holder : Option Node) (node : Node) (statement : Bool)
  /-- Say that the scope of a node opens. -/
  | openScope (node : Node) (kind : ScopeKind) (name : Option String)
  /-- Go into the scope of a node. -/
  | enterScope (node : Node) (kind : ScopeKind)
  /-- Leave the innermost scope and say so. -/
  | closeScope (site : Site)

/-- Tasks that look at nodes in order, comments left out. -/
def visits (holder : Node) (nodes : List Node) (statement : Bool) : List Task :=
  (Node.dropComments nodes).map fun n => .visit (some holder) n statement

/-- Tasks that look at the named children of a node. -/
def visitChildren (n : Node) : List Task :=
  visits n n.namedChildren n.isContainer

/-- Tasks that look at the children of a call other than its block. -/
def visitBesideBlock (call : Node) : List Task :=
  visits call ((Node.without "block" call.children).filter (·.named)) false

/-- Whether the innermost scope is a singleton body. -/
def inSingletonBody (scopes : List ScopeKind) : Bool :=
  scopes.head? == some .singletonBody

/-- What a task does: what is said, the scopes after it, innermost first, and the tasks
    that come next. -/
structure Step where
  outputs : List Output
  scopes : List ScopeKind
  next : List Task

namespace Context

/-- Looks at a node. -/
def visit (ctx : Context) (scopes : List ScopeKind) (holder : Option Node) (n : Node)
    (statement : Bool) : Step :=
  match ctx.form holder n with
  | .scope kind name => ⟨[], scopes, [.openScope n kind name]⟩
  | .definition => ⟨[ctx.definition (inSingletonBody scopes) n], scopes, []⟩
  | .directive level =>
    match ctx.directiveTargets (inSingletonBody scopes) level n with
    | .error rejection => ⟨[.rejected rejection], scopes, visitChildren n⟩
    | .ok targets =>
      ⟨ctx.direct (inSingletonBody scopes) level n.site targets, scopes, []⟩
  | .scopeCall kind name block =>
    ⟨[], scopes, visitBesideBlock n ++ [.openScope block kind name]⟩
  | .word (some level) =>
    ⟨if statement then [.event (.bare level (some n.site))] else [], scopes, []⟩
  | .word none => ⟨[], scopes, []⟩
  | .plain => ⟨[], scopes, visitChildren n⟩

/-- Does one task. -/
def step (ctx : Context) (scopes : List ScopeKind) : Task → Step
  | .visit holder n statement => ctx.visit scopes holder n statement
  | .openScope n kind name =>
    ⟨[.event (.openScope kind name (some n.site))], scopes, [.enterScope n kind]⟩
  | .enterScope n kind =>
    ⟨[], kind :: scopes,
      visits n.statementHolder n.statements true ++ [.closeScope n.site]⟩
  | .closeScope site => ⟨[.event (.closeScope (some site))], scopes.tail, []⟩

end Context

/-! ## Weights -/

namespace Task

/-- A bound on the steps that a task takes, those of the tasks it brings included. -/
def weight : Task → Nat
  | .visit _ n _ => 4 * n.size
  | .openScope n _ _ => 4 * n.size - 1
  | .enterScope n _ => 4 * n.size - 2
  | .closeScope _ => 1

/-- The weights of several tasks together. -/
def weightAll (tasks : List Task) : Nat :=
  tasks.foldr (fun t total => t.weight + total) 0

@[simp] theorem weightAll_nil : weightAll [] = 0 := rfl

@[simp] theorem weightAll_cons (t : Task) (ts : List Task) :
    weightAll (t :: ts) = t.weight + weightAll ts := rfl

@[simp] theorem weightAll_append (ts us : List Task) :
    weightAll (ts ++ us) = weightAll ts + weightAll us := by
  induction ts with
  | nil => simp
  | cons t rest ih => rw [List.cons_append, weightAll_cons, weightAll_cons, ih, Nat.add_assoc]

theorem weightAll_visits (holder : Node) (ns : List Node) (statement : Bool) :
    weightAll (visits holder ns statement) = 4 * Node.sizeAll (Node.dropComments ns) := by
  unfold visits
  induction Node.dropComments ns with
  | nil => rfl
  | cons n rest ih => simp only [List.map_cons, weightAll_cons, weight, Node.sizeAll, ih]; omega

theorem weightAll_visitChildren_lt (n : Node) : weightAll (visitChildren n) < 4 * n.size := by
  have h₁ := Node.sizeAll_dropComments_le n.namedChildren
  have h₂ := Node.sizeAll_namedChildren_lt n
  rw [visitChildren, weightAll_visits]
  omega

theorem weightAll_visitBesideBlock_add_lt {call block : Node}
    (h : call.child? "block" = some block) :
    weightAll (visitBesideBlock call) + 4 * block.size < 4 * call.size := by
  have h₁ := Node.sizeAll_dropComments_le ((Node.without "block" call.children).filter (·.named))
  have h₂ : Node.sizeAll ((Node.without "block" call.children).filter (·.named))
      ≤ Node.sizeAll (Node.without "block" call.children) :=
    Node.sizeAll_le_of_sublist List.filter_sublist
  have h₃ := Node.size_add_sizeAll_without h
  rw [visitBesideBlock, weightAll_visits, Node.size_eq call]
  omega

end Task

namespace Context

/-- The block of a call that is a scope is the child that the call holds as its block. -/
theorem child_block_of_form_scopeCall {ctx : Context} {holder : Option Node} {n block : Node}
    {kind : ScopeKind} {name : Option String}
    (h : ctx.form holder n = .scopeCall kind name block) : n.child? "block" = some block := by
  unfold form at h
  repeat' split at h
  all_goals try cases h
  unfold callForm at h
  split at h
  · cases h
  · split at h
    · next hblock _ => cases h; exact hblock
    · cases h

/-- The tasks that a task brings weigh less than the task. -/
theorem weightAll_step_lt (ctx : Context) (scopes : List ScopeKind) (t : Task) :
    Task.weightAll (ctx.step scopes t).next < t.weight := by
  cases t with
  | visit holder n statement =>
    have hpos := n.size_pos
    have hchildren := Task.weightAll_visitChildren_lt n
    simp only [step, visit, Task.weight]
    split
    · simp only [Task.weightAll_cons, Task.weightAll_nil, Task.weight]; omega
    · simp only [Task.weightAll_nil]; omega
    · split
      · exact hchildren
      · simp only [Task.weightAll_nil]; omega
    · next kind name block hform =>
      have := Task.weightAll_visitBesideBlock_add_lt (child_block_of_form_scopeCall hform)
      simp only [Task.weightAll_append, Task.weightAll_cons, Task.weightAll_nil, Task.weight]
      omega
    · simp only [Task.weightAll_nil]; omega
    · simp only [Task.weightAll_nil]; omega
    · exact hchildren
  | openScope n kind name =>
    have := n.size_pos
    simp only [step, Task.weightAll_cons, Task.weightAll_nil, Task.weight]
    omega
  | enterScope n kind =>
    have h₁ := Node.sizeAll_dropComments_le n.statements
    have h₂ := Node.sizeAll_statements_lt n
    simp only [step, Task.weightAll_append, Task.weightAll_visits, Task.weightAll_cons,
      Task.weightAll_nil, Task.weight]
    omega
  | closeScope site => simp [step, Task.weight]

end Context

/-! ## Walkers -/

/-- A walk in progress: the open scopes, innermost first, the tasks to do and what was
    said. -/
structure Walker where
  scopes : List ScopeKind
  pending : List Task
  said : Array Output

namespace Walker

/-- A walk that is about to look at a tree. -/
def start (scopes : List ScopeKind) (holder : Option Node) (root : Node) : Walker :=
  ⟨scopes, [.visit holder root false], #[]⟩

/-- Does tasks until none is left, or until `limit` events were said. What comes after
    the last of these events is left undone. -/
def consume (ctx : Context) (limit : Option Nat) : Walker → Walker
  | ⟨scopes, [], said⟩ => ⟨scopes, [], said⟩
  | ⟨scopes, task :: rest, said⟩ =>
    if limit = some 0 then ⟨scopes, task :: rest, said⟩
    else
      let s := ctx.step scopes task
      let heard : List Output :=
        match limit with
        | none => s.outputs
        | some n => Output.takeEvents n s.outputs
      consume ctx (limit.map (· - (eventsOf s.outputs).length))
        ⟨s.scopes, s.next ++ rest, said ++ heard⟩
termination_by w => Task.weightAll w.pending
decreasing_by
  have := ctx.weightAll_step_lt scopes task
  simp only [Task.weightAll_append, Task.weightAll_cons]
  omega

end Walker

/-- What one walk after another over trees of the same file leaves behind: the scopes,
    innermost first, and the rejections. -/
structure Session where
  scopes : List ScopeKind
  rejections : List Rejection

namespace Session

/-- Before the first walk. -/
def initial : Session := ⟨[.topLevel], []⟩

/-- Walks over a tree up to a number of events, or to the end. -/
def walk (s : Session) (ctx : Context) (limit : Option Nat) (holder : Option Node)
    (root : Node) : List Output × Session :=
  let w := (Walker.start s.scopes holder root).consume ctx limit
  let outputs := w.said.toList
  (outputs, ⟨w.scopes, s.rejections ++ rejectionsOf outputs⟩)

end Session

namespace Context

/-- All that is said of a tree. -/
def outputs (ctx : Context) (holder : Option Node) (root : Node) : List Output :=
  (Session.initial.walk ctx none holder root).1

/-- What a resolution draws from a tree. -/
def feed (ctx : Context) (holder : Option Node) (root : Node) : Feed :=
  (ctx.outputs holder root).map Output.feed

end Context

end MethodVisibility
