/-
  The walk as a plain recursion over the tree.

  `Context.recite` says of a node and of all below it what a walk says, with no list of
  pending tasks: a scope stands between its opening and its close, a call whose block is a
  scope says what stands beside the block first, an accepted directive says its definitions
  and then itself, a rejected one its rejection and then its children, a definition is one
  output, and any other node is as if its children stood in its place.

  The tasks of a walk settle with what the recursion says (`Context.settles_recite`), by the
  induction of the recursion itself. A task does not see those that wait behind it
  (`Walker.advance_behind`), so that a look at a node is over after a number of steps that the
  size of the node bounds, with the waiting tasks untouched.

  `visit_ends_as_recited`: this for every node, every scopes and every waiting task.
-/
import Mathlib.Logic.Function.Iterate
import MethodVisibility.Proofs.PlacedWalk

namespace MethodVisibility

namespace Context

/-! ## The recursion -/

mutual

/-- What is said of a node and of all below it. -/
def recite (ctx : Context) (scopes : List ScopeKind) (holder : Option Node) (n : Node)
    (statement : Bool) : List Output :=
  match _hform : ctx.form holder n with
  | .scope kind name => ctx.reciteScope scopes n kind name
  | .definition => [ctx.definition (inSingletonBody scopes) n]
  | .directive level =>
    match ctx.directiveTargets (inSingletonBody scopes) level n with
    | .error rejection =>
      [.rejected rejection] ++ ctx.reciteAll scopes n n.namedChildren n.isContainer
    | .ok targets => ctx.direct (inSingletonBody scopes) level n.site targets
  | .scopeCall kind name block =>
    ctx.reciteAll scopes n ((Node.without "block" n.children).filter (·.named)) false
      ++ ctx.reciteScope scopes block kind name
  | .word (some level) => if statement then [.event (.bare level (some n.site))] else []
  | .word none => []
  | .plain => ctx.reciteAll scopes n n.namedChildren n.isContainer
termination_by 3 * n.size
decreasing_by
  all_goals have hpos := n.size_pos
  all_goals have hchildren := n.sizeAll_namedChildren_lt
  all_goals try omega
  · have hblock := Node.size_add_sizeAll_without (child_block_of_form_scopeCall _hform)
    have hnamed : Node.sizeAll ((Node.without "block" n.children).filter (·.named))
        ≤ Node.sizeAll (Node.without "block" n.children) :=
      Node.sizeAll_le_of_sublist List.filter_sublist
    have := n.size_eq
    omega
  · have := Node.size_child_lt (child_block_of_form_scopeCall _hform)
    omega

/-- What is said of a node that is a scope: its statements stand between opening and close. -/
def reciteScope (ctx : Context) (scopes : List ScopeKind) (n : Node) (kind : ScopeKind)
    (name : Option String) : List Output :=
  [.event (.openScope kind name (some n.site))]
    ++ ctx.reciteAll (kind :: scopes) n.statementHolder n.statements true
    ++ [.event (.closeScope (some n.site))]
termination_by 3 * n.size - 1
decreasing_by
  have := n.sizeAll_statements_lt
  omega

/-- What is said of nodes one after the other, comments left out. -/
def reciteAll (ctx : Context) (scopes : List ScopeKind) (holder : Node) (nodes : List Node)
    (statement : Bool) : List Output :=
  match nodes with
  | [] => []
  | n :: rest =>
    (if n.isComment then [] else ctx.recite scopes (some holder) n statement)
      ++ ctx.reciteAll scopes holder rest statement
termination_by 3 * Node.sizeAll nodes + 1
decreasing_by
  all_goals have hpos := n.size_pos
  all_goals rw [Node.sizeAll]
  all_goals omega

end

/-- What is said of a node, by its form. -/
theorem recite_eq (ctx : Context) (scopes : List ScopeKind) (holder : Option Node) (n : Node)
    (statement : Bool) :
    ctx.recite scopes holder n statement =
      match ctx.form holder n with
      | .scope kind name => ctx.reciteScope scopes n kind name
      | .definition => [ctx.definition (inSingletonBody scopes) n]
      | .directive level =>
        match ctx.directiveTargets (inSingletonBody scopes) level n with
        | .error rejection =>
          [.rejected rejection] ++ ctx.reciteAll scopes n n.namedChildren n.isContainer
        | .ok targets => ctx.direct (inSingletonBody scopes) level n.site targets
      | .scopeCall kind name block =>
        ctx.reciteAll scopes n ((Node.without "block" n.children).filter (·.named)) false
          ++ ctx.reciteScope scopes block kind name
      | .word (some level) => if statement then [.event (.bare level (some n.site))] else []
      | .word none => []
      | .plain => ctx.reciteAll scopes n n.namedChildren n.isContainer := by
  rw [recite]
  split <;> rename_i h <;> rw [h]

/-! ## Tasks settle as recited -/

theorem visits_cons (holder n : Node) (rest : List Node) (statement : Bool) :
    visits holder (n :: rest) statement =
      (if n.isComment then [] else [.visit (some holder) n statement])
        ++ visits holder rest statement := by
  unfold visits Node.dropComments
  cases h : n.isComment <;> simp [h]

/-- Looking at a node, looking at nodes in order and going into a scope all settle with what
    the recursion says. -/
theorem settles_recite (ctx : Context) :
    (∀ scopes holder n statement, Settles ctx scopes [.visit holder n statement]
      (ctx.recite scopes holder n statement)) ∧
    (∀ scopes holder nodes statement, Settles ctx scopes (visits holder nodes statement)
      (ctx.reciteAll scopes holder nodes statement)) ∧
    (∀ scopes n kind name, Settles ctx scopes [.openScope n kind name]
      (ctx.reciteScope scopes n kind name)) := by
  refine recite.mutual_induct ctx
    (fun scopes holder n statement => Settles ctx scopes [.visit holder n statement]
      (ctx.recite scopes holder n statement))
    (fun scopes holder nodes statement => Settles ctx scopes (visits holder nodes statement)
      (ctx.reciteAll scopes holder nodes statement))
    (fun scopes n kind name => Settles ctx scopes [.openScope n kind name]
      (ctx.reciteScope scopes n kind name))
    ?scope ?definition ?rejected ?accepted ?scopeCall ?bare ?silent ?word ?plain ?nil ?cons
    ?inside
  case scope =>
    intro scopes holder n statement kind name hform ih
    have hstep : ctx.step scopes (.visit holder n statement) =
        ⟨[], scopes, [.openScope n kind name]⟩ := by
      simp [step, visit, hform]
    rw [recite_eq, hform]
    exact Settles.of_step hstep ih
  case definition =>
    intro scopes holder n statement hform
    have hstep : ctx.step scopes (.visit holder n statement) =
        ⟨[ctx.definition (inSingletonBody scopes) n], scopes, []⟩ := by
      simp [step, visit, hform]
    rw [recite_eq, hform]
    exact Settles.of_step hstep Settles.nil
  case rejected =>
    intro scopes holder n statement level hform rejection htargets ih
    have hstep : ctx.step scopes (.visit holder n statement) =
        ⟨[.rejected rejection], scopes, visitChildren n⟩ := by
      simp [step, visit, hform, htargets]
    simp only [recite_eq, hform, htargets]
    exact Settles.of_step hstep ih
  case accepted =>
    intro scopes holder n statement level hform targets htargets
    have hstep : ctx.step scopes (.visit holder n statement) =
        ⟨ctx.direct (inSingletonBody scopes) level n.site targets, scopes, []⟩ := by
      simp [step, visit, hform, htargets]
    simp only [recite_eq, hform, htargets]
    simpa using Settles.of_step hstep Settles.nil
  case scopeCall =>
    intro scopes holder n statement kind name block hform ihbeside ihblock
    have hstep : ctx.step scopes (.visit holder n statement) =
        ⟨[], scopes, visitBesideBlock n ++ [.openScope block kind name]⟩ := by
      simp [step, visit, hform]
    have hall := Settles.of_step hstep (ihbeside.append ihblock)
    rw [recite_eq, hform]
    rwa [List.nil_append] at hall
  case bare =>
    intro scopes holder n level hform
    have hstep : ctx.step scopes (.visit holder n true) =
        ⟨[.event (.bare level (some n.site))], scopes, []⟩ := by
      simp [step, visit, hform]
    rw [recite_eq, hform]
    exact Settles.of_step hstep Settles.nil
  case silent =>
    intro scopes holder n statement level hform hstatement
    obtain rfl : statement = false := by simpa using hstatement
    have hstep : ctx.step scopes (.visit holder n false) = ⟨[], scopes, []⟩ := by
      simp [step, visit, hform]
    rw [recite_eq, hform]
    exact Settles.of_step hstep Settles.nil
  case word =>
    intro scopes holder n statement hform
    have hstep : ctx.step scopes (.visit holder n statement) = ⟨[], scopes, []⟩ := by
      simp [step, visit, hform]
    rw [recite_eq, hform]
    exact Settles.of_step hstep Settles.nil
  case plain =>
    intro scopes holder n statement hform ih
    have hstep : ctx.step scopes (.visit holder n statement) =
        ⟨[], scopes, visitChildren n⟩ := by
      simp [step, visit, hform]
    rw [recite_eq, hform]
    exact Settles.of_step hstep ih
  case nil =>
    intro scopes holder statement
    rw [reciteAll]
    exact Settles.nil
  case cons =>
    intro scopes holder statement n rest ihn ihrest
    rw [reciteAll, visits_cons]
    split
    · exact ihrest
    · exact ihn.append ihrest
  case inside =>
    intro scopes n kind name ih
    rw [reciteScope]
    exact Settles.openScope ih

end Context

/-! ## Tasks that wait -/

namespace Walker

/-- A walk with more tasks behind those that are pending. -/
def behind (w : Walker) (rest : List Task) : Walker :=
  { w with pending := w.pending ++ rest }

/-- A task does not see the tasks that wait behind it. -/
theorem advance_behind (ctx : Context) {w : Walker} (h : w.pending ≠ []) (rest : List Task) :
    (w.behind rest).advance ctx = (w.advance ctx).behind rest := by
  obtain ⟨scopes, pending, said⟩ := w
  cases pending with
  | nil => exact absurd rfl h
  | cons task others => simp [advance, behind]

/-- A walk that is done before others ends in as many steps as it weighs, and they wait. -/
theorem exists_iterate_advance (ctx : Context) (w : Walker) (rest : List Task) :
    ∃ k ≤ Task.weightAll w.pending,
      (advance ctx)^[k] (w.behind rest) = (w.consume ctx none).behind rest := by
  by_cases hpending : w.pending = []
  · exact ⟨0, Nat.zero_le _, by rw [consume_of_pending_nil ctx hpending]; rfl⟩
  · have hlt := weightAll_advance_lt ctx hpending
    obtain ⟨k, hk, hrun⟩ := exists_iterate_advance ctx (w.advance ctx) rest
    refine ⟨k + 1, by omega, ?_⟩
    rw [Function.iterate_succ_apply, advance_behind ctx hpending, hrun, consume_advance]
termination_by Task.weightAll w.pending

theorem pending_consume (ctx : Context) (w : Walker) : (w.consume ctx none).pending = [] := by
  by_cases hpending : w.pending = []
  · rw [consume_of_pending_nil ctx hpending, hpending]
  · have hlt := weightAll_advance_lt ctx hpending
    rw [← consume_advance]
    exact pending_consume ctx (w.advance ctx)
termination_by Task.weightAll w.pending

/-- Looking at a node alone. -/
theorem consume_visit (ctx : Context) (scopes : List ScopeKind) (holder : Option Node) (n : Node)
    (statement : Bool) (said : Array Output) :
    (Walker.mk scopes [.visit holder n statement] said).consume ctx none =
      ⟨scopes, [], said ++ ctx.recite scopes holder n statement⟩ := by
  have hvisit := ctx.settles_recite.1 scopes holder n statement [] said
  exact hvisit.trans (consume_of_pending_nil ctx rfl)

end Walker

/-- A look at a node, whatever tasks wait behind it, is over after a bounded number of steps:
    what the recursion says of the node has been said, the scopes are as they were and the
    waiting tasks are untouched. So the whole loop goes on with these and ends, and a walk over
    a tree in any session says and rejects what the recursion does. -/
theorem visit_ends_as_recited (ctx : Context) (holder : Option Node) (n : Node)
    (statement : Bool) :
    (∀ scopes rest said,
      (∃ k ≤ 4 * n.size,
        (Walker.advance ctx)^[k] ⟨scopes, .visit holder n statement :: rest, said⟩ =
          ⟨scopes, rest, said ++ ctx.recite scopes holder n statement⟩) ∧
      (Walker.mk scopes (.visit holder n statement :: rest) said).consume ctx none =
        (Walker.mk scopes rest (said ++ ctx.recite scopes holder n statement)).consume ctx none ∧
      ((Walker.mk scopes (.visit holder n statement :: rest) said).consume ctx none).pending =
        []) ∧
    ∀ session : Session,
      session.walk ctx none holder n =
        (ctx.recite session.scopes holder n false,
          ⟨session.scopes,
            session.rejections ++ rejectionsOf (ctx.recite session.scopes holder n false)⟩) := by
  refine ⟨?_, ?_⟩
  · intro scopes rest said
    refine ⟨?_, ?_, ?_⟩
    · obtain ⟨k, hk, hrun⟩ := Walker.exists_iterate_advance ctx
        ⟨scopes, [.visit holder n statement], said⟩ rest
      rw [Walker.consume_visit] at hrun
      refine ⟨k, ?_, hrun⟩
      simpa [Task.weight] using hk
    · exact ctx.settles_recite.1 scopes holder n statement rest said
    · exact Walker.pending_consume ctx _
  · intro session
    simp [Session.walk, Walker.start, Walker.consume_visit]

end MethodVisibility
