/-
  The directive events of a walk.

  `Standing.Directs` says which directive events a node gives where a walk comes to it: a word that
  spells a level gives a bare one, a directive call without arguments another, and a directive call
  with targets one that has the names of its targets. The directive events of a walk are those of
  the nodes that it comes to (`Standing.mem_told`, `Standing.event_mem_said_iff`).

  A definition may stand in the place of a name and have none itself. It is a target, and so the
  call is no longer one that names nothing; but it gives no name. A targeted directive without names
  is what is left of a call whose targets are all of this kind (`Context.targetNames_eq_nil_iff`),
  and it is not rejected (`nameless_definition_leaves_no_names`).

  `directive_events`: the directive events of any walk, and the calls that name nothing.
-/
import MethodVisibility.Proofs.Rejections

namespace MethodVisibility

/-- Whether an event is a directive. -/
def Event.isDirective : Event → Bool
  | .bare _ _ | .targeted _ _ _ => true
  | _ => false

theorem mem_eventsOf {e : Event} {outputs : List Output} :
    e ∈ eventsOf outputs ↔ .event e ∈ outputs := by
  rw [eventsOf, List.mem_filterMap]
  constructor
  · rintro ⟨o, ho, heq⟩
    cases o <;> cases heq
    exact ho
  · intro h
    exact ⟨_, h, rfl⟩

theorem mem_rejectionsOf {r : Rejection} {outputs : List Output} :
    r ∈ rejectionsOf outputs ↔ .rejected r ∈ outputs := by
  rw [rejectionsOf, List.mem_filterMap]
  constructor
  · rintro ⟨o, ho, heq⟩
    cases o <;> cases heq
    exact ho
  · intro h
    exact ⟨_, h, rfl⟩

namespace Context

/-- A target that gives no name: a definition that has none. -/
def Nameless (ctx : Context) (target : Target) : Prop :=
  ∃ n, target = .definition n ∧ ctx.name? n = none

/-- Targets give no name if none of them has one. -/
theorem targetNames_eq_nil_iff (ctx : Context) (targets : List Target) :
    ctx.targetNames targets = [] ↔ ∀ target ∈ targets, ctx.Nameless target := by
  rw [targetNames, List.filterMap_eq_nil_iff]
  refine forall₂_congr fun target _ => ?_
  cases target with
  | name identifier => simp [Nameless]
  | definition n => simp [Nameless]

/-- A definition that is a target of an argument is the argument. -/
theorem Argument.eq_definition {ctx : Context} {scopes : List ScopeKind} {arg n : Node}
    {targets : List Target} (h : ctx.Argument scopes arg targets) (hn : .definition n ∈ targets) :
    n = arg ∧ n.isDefinition = true := by
  cases h with
  | method kind =>
    cases List.mem_singleton.mp hn
    exact ⟨rfl, by simp [Node.isDefinition, kind]⟩
  | singletonMethod kind =>
    cases List.mem_singleton.mp hn
    exact ⟨rfl, by simp [Node.isDefinition, kind]⟩
  | name => cases List.mem_singleton.mp hn
  | list => simp at hn

/-- A definition that is a target of a call is one of its arguments. -/
theorem DirectiveCall.definition_mem {ctx : Context} {scopes : List ScopeKind} {call n : Node}
    {found : List Target} (h : ctx.DirectiveCall scopes call found)
    (hn : .definition n ∈ found) : n ∈ arguments call ∧ n.isDefinition = true := by
  have hargs : ∀ (args : List Node) (each : List (List Target)),
      List.Forall₂ (ctx.Argument scopes) args each → .definition n ∈ each.flatten →
      n ∈ args ∧ n.isDefinition = true := by
    intro args each hall hmem
    induction hall with
    | nil => cases hmem
    | cons hfirst _ ih =>
      rcases List.mem_append.mp hmem with hmem | hmem
      · obtain ⟨rfl, hdefinition⟩ := hfirst.eq_definition hmem
        exact ⟨List.mem_cons_self, hdefinition⟩
      · obtain ⟨hrest, hdefinition⟩ := ih hmem
        exact ⟨List.mem_cons_of_mem _ hrest, hdefinition⟩
  cases h with
  | bare => cases hn
  | targeted _ held args _ =>
    rw [arguments, held]
    exact hargs _ _ args hn

/-- The arguments of a call are among the nodes below it. -/
theorem mem_nodes_of_mem_arguments {call arg : Node} (h : arg ∈ arguments call) :
    arg ∈ call.nodes := by
  unfold arguments at h
  split at h
  · cases h
  · next list hlist =>
    have hchild : arg ∈ list.children := by
      simp only [Node.dropComments, Node.namedChildren, List.mem_filter] at h
      exact h.1.1
    have hbelow := Node.mem_nodes_of_mem_children hchild arg.mem_nodes_self
    exact Node.mem_nodes_of_mem_children (List.mem_of_find?_eq_some hlist) hbelow

/-- A call whose arguments leave nothing to read is rejected. -/
theorem directiveTargets_of_operands_nil (ctx : Context) (inSingleton : Bool) (level : Level)
    {call : Node} (hblock : call.child? "block" = none) (harguments : arguments call ≠ [])
    (hoperands : operands call = []) :
    ctx.directiveTargets inSingleton level call =
      .error ⟨level, .namesNoMethods, call.site⟩ := by
  have hread : ∀ args : List Node, args.flatMap operandsOf = [] →
      ctx.argumentsTargets inSingleton args = .ok [] := by
    intro args hargs
    induction args with
    | nil => rfl
    | cons arg rest ih =>
      rw [List.flatMap_cons, List.append_eq_nil_iff] at hargs
      have hlist : arg.isNameList = true := by
        cases hlist : arg.isNameList with
        | true => rfl
        | false => simp [operandsOf, hlist] at hargs
      have hnone : Node.dropComments arg.namedChildren = [] := by
        simpa [operandsOf, hlist] using hargs.1
      rw [argumentsTargets_cons, argumentTargets_of_isNameList hlist, hnone, ih hargs.2]
      rfl
  rw [directiveTargets, targets_of_block_none hblock, if_neg (by simpa using harguments),
    hread _ hoperands]
  rfl

end Context

namespace Standing

variable (ctx : Context)

/-! ## Where outputs come from -/

/-- What is said of a node and of all below it is what is said of the nodes to which the walk
    comes. -/
theorem mem_told {s : Standing} {o : Output} :
    o ∈ s.told ctx ↔ ∃ p v, (p, v) ∈ s.reached ctx ∧ o ∈ v.before ctx ++ v.after ctx := by
  induction s using Standing.induction ctx with
  | step s ih =>
    have hbelow : o ∈ (s.steps ctx).flatMap (fun x => x.2.told ctx) ↔
        ∃ x ∈ s.steps ctx, ∃ p v, (p, v) ∈ x.2.reached ctx ∧ o ∈ v.before ctx ++ v.after ctx := by
      rw [List.mem_flatMap]
      refine exists_congr fun x => and_congr_right fun hx => ?_
      exact ih x.1 x.2 ((mem_steps ctx).mp hx)
    rw [told_eq_steps, List.mem_append, List.mem_append, hbelow, reached_eq]
    constructor
    · rintro ((hbefore | ⟨x, hx, p, v, hv, ho⟩) | hafter)
      · exact ⟨[], s, List.mem_cons_self, List.mem_append_left _ hbefore⟩
      · refine ⟨x.1 :: p, v, List.mem_cons_of_mem _ (List.mem_flatMap.mpr ⟨x, hx, ?_⟩), ho⟩
        exact List.mem_map.mpr ⟨(p, v), hv, rfl⟩
      · exact ⟨[], s, List.mem_cons_self, List.mem_append_right _ hafter⟩
    · rintro ⟨p, v, hv, ho⟩
      rcases List.mem_cons.mp hv with heq | hv
      · cases heq
        rcases List.mem_append.mp ho with hbefore | hafter
        · exact .inl (.inl hbefore)
        · exact .inr hafter
      · obtain ⟨x, hx, hv⟩ := List.mem_flatMap.mp hv
        obtain ⟨⟨q, u⟩, hu, heq⟩ := List.mem_map.mp hv
        cases heq
        exact .inl (.inr ⟨x, hx, q, u, hu, ho⟩)

/-! ## Directive events -/

/-- The directive events that a node gives. -/
inductive Directs (v : Standing) : Event → Prop
  | word {level : Level} (role : v.role = .visited true) (kind : v.node.kind = "identifier")
      (text : ctx.text v.node = level.word) : Directs v (.bare level (some v.node.site))
  | bare {level : Level} (role : v.role.isVisited = true)
      (directive : ctx.directive? v.node = some level)
      (call : ctx.DirectiveCall v.scopes v.node []) : Directs v (.bare level (some v.node.site))
  | targeted {level : Level} {found : List Target} (role : v.role.isVisited = true)
      (directive : ctx.directive? v.node = some level)
      (call : ctx.DirectiveCall v.scopes v.node found) (nonempty : found ≠ []) :
      Directs v (.targeted level (ctx.targetNames found) (some v.node.site))

variable {ctx} {v : Standing}

/-- A node that gives a directive with targets is a call that has some. -/
theorem Directs.of_targeted {level : Level} {targets : List String} {site : Option Site}
    (h : v.Directs ctx (.targeted level targets site)) :
    ∃ found, v.role.isVisited = true ∧ ctx.directive? v.node = some level ∧
      ctx.DirectiveCall v.scopes v.node found ∧ found ≠ [] ∧
      targets = ctx.targetNames found ∧ site = some v.node.site := by
  cases h with
  | targeted role directive call nonempty => exact ⟨_, role, directive, call, nonempty, rfl, rfl⟩

/-- A word that spells a level is what it is by its kind and its text. -/
theorem form_eq_word_iff {holder : Option Node} {n : Node} {level : Level} :
    ctx.form holder n = .word (some level) ↔ n.kind = "identifier" ∧ ctx.text n = level.word := by
  have hword : n.kind = "identifier" → ctx.form holder n = .word (Level.ofWord? (ctx.text n)) := by
    intro hkind
    simp [Context.form, Node.isDefinition, Node.isCall, hkind]
  constructor
  · intro h
    have hreading := ctx.form_reading holder n
    rw [h] at hreading
    cases hreading with
    | word _ _ hkind =>
      rw [hword hkind, Form.word.injEq, Level.ofWord?_eq_some_iff] at h
      exact ⟨hkind, h⟩
  · rintro ⟨hkind, htext⟩
    rw [hword hkind, htext, Level.ofWord?_word]

/-- What is said of a definition is no directive. -/
theorem isDirective_definition {inSingleton : Bool} {n : Node} {e : Event}
    (h : .event e = ctx.definition inSingleton n) : e.isDirective = false := by
  unfold Context.definition at h
  split at h
  · cases h
  · split at h <;> cases h <;> rfl

theorem directs_of_mem_remark {e : Event} (he : e.isDirective = true)
    (h : .event e ∈ v.remark ctx) : v.Directs ctx e := by
  unfold remark at h
  split at h
  · next statement hrole =>
    split at h
    · next hform =>
      rw [isDirective_definition (List.mem_singleton.mp h)] at he
      cases he
    · split at h <;> simp at h
    · next level hform =>
      obtain ⟨hkind, htext⟩ := form_eq_word_iff.mp hform
      cases statement with
      | false => simp at h
      | true =>
        simp only [if_true, List.mem_singleton, Output.event.injEq] at h
        rw [h]
        exact .word hrole hkind htext
    · simp at h
  · split at h
    · rw [isDirective_definition (List.mem_singleton.mp h)] at he
      cases he
    · simp at h
  · simp at h

theorem directs_of_mem_verdict {e : Event} (h : .event e ∈ v.verdict ctx) : v.Directs ctx e := by
  unfold verdict at h
  split at h
  · next statement hrole =>
    have hvisited : v.role.isVisited = true := by rw [hrole]; rfl
    split at h
    · next level hform =>
      have hreading := ctx.form_reading v.holder v.node
      rw [hform] at hreading
      cases hreading with
      | directive _ _ _ hdirective =>
        split at h
        · simp at h
        · next hread =>
          obtain rfl := Output.event.inj (List.mem_singleton.mp h)
          exact .bare hvisited hdirective (Context.directiveTargets_eq_ok_iff.mp hread)
        · next found hnonempty hread =>
          obtain rfl := Output.event.inj (List.mem_singleton.mp h)
          exact .targeted hvisited hdirective (Context.directiveTargets_eq_ok_iff.mp hread)
            (by simpa using hnonempty)
    · simp at h
  · simp at h

/-- What is said of a directive call to which a walk comes. -/
theorem said_of_directive? {level : Level} (hvisited : v.role.isVisited = true)
    (hdirective : ctx.directive? v.node = some level) :
    v.before ctx ++ v.after ctx =
      match ctx.directiveTargets (inSingletonBody v.scopes) level v.node with
      | .error rejection => [.rejected rejection]
      | .ok [] => [.event (.bare level (some v.node.site))]
      | .ok found => [.event (.targeted level (ctx.targetNames found) (some v.node.site))] := by
  have hown := ctx.ownScope?_of_isCall (ctx.isCall_of_directive? hdirective)
  have hform := Context.form_of_directive? hdirective v.holder
  cases hrole : v.role with
  | visited statement =>
    simp only [before, after, scope?, remark, verdict, hrole, hown, hform]
    cases ctx.directiveTargets (inSingletonBody v.scopes) level v.node with
    | error rejection => rfl
    | ok found => cases found <;> rfl
  | _ =>
    rw [hrole] at hvisited
    cases hvisited

/-- The directive events that are said of a node are those that it gives. -/
theorem event_mem_said_iff {e : Event} (he : e.isDirective = true) :
    .event e ∈ v.before ctx ++ v.after ctx ↔ v.Directs ctx e := by
  constructor
  · intro h
    cases hscope : v.scope? ctx with
    | some head =>
      simp only [before, after, hscope, List.mem_append, List.mem_singleton,
        Output.event.injEq] at h
      rcases h with rfl | rfl <;> cases he
    | none =>
      rw [before, after, hscope, List.mem_append] at h
      exact h.elim (directs_of_mem_remark he) directs_of_mem_verdict
  · intro h
    cases h with
    | word role kind text =>
      have hform : ctx.form v.holder v.node = .word (some _) := form_eq_word_iff.mpr ⟨kind, text⟩
      have hown : ctx.ownScope? v.node = none := by simp [Context.ownScope?, kind]
      simp [before, after, scope?, remark, verdict, role, hown, hform]
    | bare role directive call =>
      rw [said_of_directive? role directive, Context.directiveTargets_eq_ok_iff.mpr call]
      exact List.mem_singleton_self _
    | @targeted level found role directive call nonempty =>
      rw [said_of_directive? role directive, Context.directiveTargets_eq_ok_iff.mpr call]
      cases found with
      | nil => exact absurd rfl nonempty
      | cons target rest => exact List.mem_singleton_self _

/-- The nodes below a node to which a walk comes are nodes of the tree. -/
theorem mem_nodes_of_at? {s : Standing} {p : Place} (hv : s.at? ctx p = some v) {n : Node}
    (hn : n ∈ v.node.nodes) : n ∈ s.node.nodes := by
  induction p generalizing s with
  | nil =>
    cases hv
    exact hn
  | cons i rest ih =>
    obtain ⟨t, ht, hv⟩ := Option.bind_eq_some_iff.mp hv
    exact Node.mem_nodes_of_mem_children (node_mem_of_child? ctx ht) (ih hv)

variable (ctx) in
/-- The directive events of a walk are those of the nodes to which it comes. -/
theorem mem_directives_iff {s : Standing} {e : Event} (he : e.isDirective = true) :
    e ∈ eventsOf (s.told ctx) ↔ ∃ p v, (p, v) ∈ s.reached ctx ∧ v.Directs ctx e := by
  rw [mem_eventsOf, mem_told]
  refine exists_congr fun p => exists_congr fun v => and_congr_right fun _ => ?_
  exact event_mem_said_iff he

/-- The node is a directive call with targets, and none of them gives a name. -/
structure NamesNone (ctx : Context) (v : Standing) (level : Level) (found : List Target) :
    Prop where
  role : v.role.isVisited = true
  directive : ctx.directive? v.node = some level
  call : ctx.DirectiveCall v.scopes v.node found
  nonempty : found ≠ []
  nameless : ∀ target ∈ found, ctx.Nameless target

variable (ctx) in
theorem mem_empty_targeted_iff {s : Standing} {level : Level} {site : Option Site} :
    .targeted level [] site ∈ eventsOf (s.told ctx) ↔
      ∃ p v found, (p, v) ∈ s.reached ctx ∧ v.NamesNone ctx level found ∧
        site = some v.node.site := by
  rw [mem_directives_iff ctx rfl]
  constructor
  · rintro ⟨p, v, hv, hdirects⟩
    obtain ⟨found, hrole, hdirective, hcall, hfound, hnames, hsite⟩ := hdirects.of_targeted
    have hnameless := (ctx.targetNames_eq_nil_iff found).mp hnames.symm
    exact ⟨p, v, found, hv, ⟨hrole, hdirective, hcall, hfound, hnameless⟩, hsite⟩
  · rintro ⟨p, v, found, hv, h, rfl⟩
    refine ⟨p, v, hv, ?_⟩
    rw [← (ctx.targetNames_eq_nil_iff found).mpr h.nameless]
    exact .targeted h.role h.directive h.call h.nonempty

/-- Where all definitions of a tree have names, there is no such call. -/
theorem not_namesNone {s : Standing} {p : Place} (hv : (p, v) ∈ s.reached ctx)
    (hnamed : ∀ n ∈ s.node.nodes, n.isDefinition = true → (ctx.name? n).isSome = true)
    (level : Level) (found : List Target) : ¬ v.NamesNone ctx level found := by
  intro h
  obtain ⟨target, rest, rfl⟩ := List.exists_cons_of_ne_nil h.nonempty
  obtain ⟨n, rfl, hnone⟩ := h.nameless target List.mem_cons_self
  obtain ⟨harg, hdefinition⟩ := h.call.definition_mem List.mem_cons_self
  have hat := (mem_reached ctx).mp hv
  have hn := mem_nodes_of_at? hat (Context.mem_nodes_of_mem_arguments harg)
  have hsome := hnamed n hn hdefinition
  rw [hnone] at hsome
  cases hsome

/-- Of a call whose arguments leave nothing to read, all that is said is that it names nothing. -/
theorem said_of_operands_nil {level : Level} (hrole : v.role.isVisited = true)
    (hdirective : ctx.directive? v.node = some level) (hblock : v.node.child? "block" = none)
    (harguments : Context.arguments v.node ≠ []) (hoperands : Context.operands v.node = []) :
    v.before ctx ++ v.after ctx = [.rejected ⟨level, .namesNoMethods, v.node.site⟩] := by
  rw [said_of_directive? hrole hdirective,
    ctx.directiveTargets_of_operands_nil _ level hblock harguments hoperands]

end Standing

/-- How a walk over a tree in a session stands at the root. -/
def Session.standing (session : Session) (holder : Option Node) (root : Node) : Standing :=
  ⟨session.scopes.map (·, none), .visited false, holder, root⟩

/-- A walk over any tree in any session. Its directive events are those that the nodes give to
    which it comes: a bare one has no targets, and the targets of any other are the names of the
    targets of a directive call that has some. So one without targets stands for a call whose
    targets are definitions that have no name, and where all definitions have names there is none.
    Of a call whose arguments leave nothing to read, all that is said is that it names no
    methods. -/
theorem directive_events (ctx : Context) (session : Session) (holder : Option Node)
    (root : Node) :
    let start := session.standing holder root
    let ended := session.walk ctx none holder root
    (∀ e : Event, e.isDirective = true →
      (e ∈ eventsOf ended.1 ↔ ∃ p v, (p, v) ∈ start.reached ctx ∧ v.Directs ctx e)) ∧
    (∀ level site, .targeted level [] site ∈ eventsOf ended.1 ↔
      ∃ p v found, (p, v) ∈ start.reached ctx ∧ v.NamesNone ctx level found ∧
        site = some v.node.site) ∧
    ((∀ n ∈ root.nodes, n.isDefinition = true → (ctx.name? n).isSome = true) →
      ∀ level targets site, .targeted level targets site ∈ eventsOf ended.1 → targets ≠ []) ∧
    ∀ p v level, (p, v) ∈ start.reached ctx → v.role.isVisited = true →
      ctx.directive? v.node = some level → v.node.child? "block" = none →
      Context.arguments v.node ≠ [] → Context.operands v.node = [] →
      saidAt (start.walk ctx) p = [.rejected ⟨level, .namesNoMethods, v.node.site⟩] ∧
        ⟨level, .namesNoMethods, v.node.site⟩ ∈ ended.2.rejections := by
  intro start ended
  have hsaid : ended.1 = start.told ctx :=
    session.said_walk ctx _ holder root (by simp [Function.comp_def])
  refine ⟨?_, ?_, ?_, ?_⟩
  · intro e he
    rw [hsaid]
    exact Standing.mem_directives_iff ctx he
  · intro level site
    rw [hsaid]
    exact Standing.mem_empty_targeted_iff ctx
  · rintro hnamed level targets site hmem rfl
    rw [hsaid] at hmem
    obtain ⟨p, v, found, hv, hnone, -⟩ := (Standing.mem_empty_targeted_iff ctx).mp hmem
    exact Standing.not_namesNone hv hnamed level found hnone
  · intro p v level hv hrole hdirective hblock harguments hoperands
    have hwhole := Standing.said_of_operands_nil hrole hdirective hblock harguments hoperands
    have htold : .rejected ⟨level, .namesNoMethods, v.node.site⟩ ∈ ended.1 := by
      rw [hsaid, Standing.mem_told]
      exact ⟨p, v, hv, by rw [hwhole]; exact List.mem_singleton_self _⟩
    refine ⟨?_, List.mem_append_right _ (mem_rejectionsOf.mpr htold)⟩
    rw [Standing.saidAt_walk, (Standing.mem_reached ctx).mp hv, Option.map_some, Option.getD_some,
      hwhole]

/-- The definition has no name. -/
def namelessTree : Node :=
  sampleNode "program" none 0 11 [
    sampleNode "call" none 0 11 [
      sampleNode "identifier" (some "method") 0 7 [],
      sampleNode "argument_list" (some "arguments") 8 11 [sampleNode "method" none 8 11 []]]]

/-- The call in `namelessTree` names no method, but it is not rejected: what is left of it is a
    directive with targets that has none. -/
theorem nameless_definition_leaves_no_names :
    let ended := Session.initial.walk ⟨.ofText "private def", [], []⟩ none none namelessTree
    ended.1 = [.unnamed ⟨0, 8⟩, .event (.targeted .priv [] (some ⟨1, some 1, 0⟩))] ∧
      ended.2.rejections = [] := by
  decide +kernel

end MethodVisibility
