/-
  Frames are lexical.

  When a run takes an event of a walk, the frames that are open are the scopes that enclose
  the node of which the event was said: `Standing.trail` lists the nodes above a place, and
  `Standing.scope?` the scope that each of them is.

  `Heard ctx s p e heads` is what one event has to meet, and `Along` says that all events of
  a list meet it with the scopes then open. A walk does (`Standing.passes_walk`): what it says
  of a node that is a scope stands between its opening and its close, and the rest leaves the
  open scopes as they are.

  `frames_enclose`: the frames of the run at every event of a walk.
-/
import MethodVisibility.Proofs.PlacedWalk

namespace MethodVisibility

/-! ## The nodes above a place -/

/-- The nodes above a place, from the root down. -/
def Node.above (n : Node) : Place → List Node
  | [] => []
  | i :: rest =>
    match n.children[i]? with
    | none => [n]
    | some c => n :: c.above rest

namespace Standing

variable (ctx : Context)

/-- How a walk stands at the nodes above a place, from the root down. -/
def trail (s : Standing) : Place → List Standing
  | [] => []
  | i :: rest =>
    match s.child? ctx i with
    | none => [s]
    | some t => s :: t.trail rest

theorem at?_cons {s t v : Standing} {i : Nat} {rest : Place} (ht : s.child? ctx i = some t)
    (hv : t.at? ctx rest = some v) : s.at? ctx (i :: rest) = some v := by
  simp [at?, ht, hv]

/-- What there is at a place to which the walk comes: the node at the place, the nodes above
    it, and the scopes among these. -/
theorem trail_spec {s v : Standing} {p : Place} (h : s.at? ctx p = some v) :
    s.node.nodeAt? p = some v.node ∧ (s.trail ctx p).map (·.node) = s.node.above p ∧
      v.heads.reverse = s.heads.reverse ++ (s.trail ctx p).filterMap (·.scope? ctx) := by
  induction p generalizing s with
  | nil =>
    cases h
    exact ⟨rfl, rfl, by simp [trail]⟩
  | cons i rest ih =>
    obtain ⟨t, ht, hv⟩ := Option.bind_eq_some_iff.mp h
    obtain ⟨hnode, habove, hheads⟩ := ih hv
    obtain ⟨c, role, hc, _, hbelow⟩ := (child?_eq_some ctx).mp ht
    have htnode : t.node = c := by rw [hbelow]; rfl
    have htheads : t.heads = s.inner ctx := by rw [hbelow]; rfl
    rw [htnode] at hnode habove
    refine ⟨?_, ?_, ?_⟩
    · rw [Node.nodeAt?_cons hc, hnode]
    · simp [trail, ht, Node.above, hc, habove]
    · rw [hheads, htheads]
      simp only [trail, ht, inner]
      cases hscope : s.scope? ctx <;> simp [hscope]

/-! ## Events and the scopes open at them -/

/-- What an event said of a place has to do with the scopes that are open at it: they are
    those around the node, and at a close the node's own is open as well. -/
def Heard (s : Standing) (p : Place) (e : Event) (heads : List ScopeHead) : Prop :=
  ∃ v, s.at? ctx p = some v ∧ e.site = some v.node.site ∧
    match e with
    | .openScope kind name _ => v.scope? ctx = some (kind, name) ∧ heads = v.heads
    | .closeScope _ => ∃ own, v.scope? ctx = some own ∧ heads = own :: v.heads
    | _ => heads = v.heads

end Standing

/-- Every event of a list meets a condition, with the scopes that are open at it. -/
def Along (meets : Place → Event → List ScopeHead → Prop) (heads : List ScopeHead) :
    List (Place × Output) → Prop
  | [] => True
  | (p, .event e) :: rest => meets p e heads ∧ Along meets (headsAfter heads e) rest
  | _ :: rest => Along meets heads rest

/-- The open scopes after what was said. -/
def headsOver (heads : List ScopeHead) (said : List (Place × Output)) : List ScopeHead :=
  (eventsOf (said.map (·.2))).foldl headsAfter heads

theorem headsOver_append (heads : List ScopeHead) (xs ys : List (Place × Output)) :
    headsOver heads (xs ++ ys) = headsOver (headsOver heads xs) ys := by
  simp [headsOver]

theorem headsOver_fromChild (heads : List ScopeHead) (i : Nat) (xs : List (Place × Output)) :
    headsOver heads (Standing.fromChild i xs) = headsOver heads xs := by
  simp [headsOver, Standing.fromChild, Function.comp_def]

namespace Along

variable {meets : Place → Event → List ScopeHead → Prop} {heads : List ScopeHead}

theorem append_iff {xs ys : List (Place × Output)} :
    Along meets heads (xs ++ ys) ↔
      Along meets heads xs ∧ Along meets (headsOver heads xs) ys := by
  induction xs generalizing heads with
  | nil => simp [Along, headsOver]
  | cons x rest ih =>
    obtain ⟨p, o⟩ := x
    cases o with
    | event e =>
      simp only [List.cons_append, Along, ih, and_assoc]
      rfl
    | rejected r =>
      simp only [List.cons_append, Along, ih]
      rfl
    | unnamed start =>
      simp only [List.cons_append, Along, ih]
      rfl

theorem fromChild {i : Nat} {xs : List (Place × Output)}
    (h : Along (fun p => meets (i :: p)) heads xs) :
    Along meets heads (Standing.fromChild i xs) := by
  induction xs generalizing heads with
  | nil => exact True.intro
  | cons x rest ih =>
    obtain ⟨p, o⟩ := x
    cases o with
    | event e => exact ⟨h.1, ih h.2⟩
    | rejected r => exact ih h
    | unnamed start => exact ih h

theorem mono {meets' : Place → Event → List ScopeHead → Prop} {xs : List (Place × Output)}
    (himp : ∀ p e heads, meets p e heads → meets' p e heads) (h : Along meets heads xs) :
    Along meets' heads xs := by
  induction xs generalizing heads with
  | nil => exact True.intro
  | cons x rest ih =>
    obtain ⟨p, o⟩ := x
    cases o with
    | event e => exact ⟨himp p e heads h.1, ih h.2⟩
    | rejected r => exact ih h
    | unnamed start => exact ih h

end Along

/-- Every event of a list meets a condition, and the list leads from some open scopes to
    others. -/
def Passes (meets : Place → Event → List ScopeHead → Prop) (heads : List ScopeHead)
    (said : List (Place × Output)) (heads' : List ScopeHead) : Prop :=
  Along meets heads said ∧ headsOver heads said = heads'

namespace Passes

variable {meets : Place → Event → List ScopeHead → Prop} {heads heads' heads'' : List ScopeHead}

theorem nil : Passes meets heads [] heads :=
  ⟨True.intro, rfl⟩

theorem append {xs ys : List (Place × Output)} (hxs : Passes meets heads xs heads')
    (hys : Passes meets heads' ys heads'') : Passes meets heads (xs ++ ys) heads'' := by
  obtain ⟨hxs, rfl⟩ := hxs
  obtain ⟨hys, rfl⟩ := hys
  exact ⟨Along.append_iff.mpr ⟨hxs, hys⟩, headsOver_append heads xs ys⟩

theorem flatMap {α : Type} {xs : List α} {f : α → List (Place × Output)}
    (h : ∀ x ∈ xs, Passes meets heads (f x) heads) : Passes meets heads (xs.flatMap f) heads := by
  induction xs with
  | nil => exact nil
  | cons x rest ih =>
    rw [List.flatMap_cons]
    exact (h x List.mem_cons_self).append (ih fun y hy => h y (List.mem_cons_of_mem _ hy))

theorem fromChild {meets' : Place → Event → List ScopeHead → Prop} {i : Nat}
    {xs : List (Place × Output)} (himp : ∀ p e heads, meets p e heads → meets' (i :: p) e heads)
    (h : Passes meets heads xs heads') :
    Passes meets' heads (Standing.fromChild i xs) heads' :=
  ⟨Along.fromChild (h.1.mono himp), (headsOver_fromChild heads i xs).trans h.2⟩

end Passes

/-! ## What is said of a node itself -/

/-- An output that is no event, or an event at a site that opens and closes nothing. -/
def Output.StandsAt (site : Site) : Output → Prop
  | .event (.openScope _ _ _) => False
  | .event (.closeScope _) => False
  | .event e => e.site = some site
  | _ => True

theorem Context.standsAt_definition (ctx : Context) (inSingleton : Bool) (n : Node) :
    (ctx.definition inSingleton n).StandsAt n.site := by
  unfold definition
  split
  · exact True.intro
  · split <;> rfl

namespace Standing

variable (ctx : Context) {s : Standing}

theorem standsAt_remark : ∀ o ∈ s.remark ctx, o.StandsAt s.node.site := by
  unfold remark
  split
  · split
    · exact List.forall_mem_singleton.mpr (ctx.standsAt_definition _ _)
    · split
      · exact List.forall_mem_singleton.mpr True.intro
      · exact List.forall_mem_nil _
    · split
      · exact List.forall_mem_singleton.mpr rfl
      · exact List.forall_mem_nil _
    · exact List.forall_mem_nil _
  · split
    · exact List.forall_mem_singleton.mpr (ctx.standsAt_definition _ _)
    · exact List.forall_mem_nil _
  · exact List.forall_mem_nil _

theorem standsAt_verdict : ∀ o ∈ s.verdict ctx, o.StandsAt s.node.site := by
  unfold verdict
  split
  · split
    · split
      · exact List.forall_mem_nil _
      · exact List.forall_mem_singleton.mpr rfl
      · exact List.forall_mem_singleton.mpr rfl
    · exact List.forall_mem_nil _
  · exact List.forall_mem_nil _

/-- What stands at a node leaves the open scopes as they are. -/
theorem passes_standsAt {outputs : List Output} (h : ∀ o ∈ outputs, o.StandsAt s.node.site) :
    Passes (s.Heard ctx) s.heads (outputs.map (([] : Place), ·)) s.heads := by
  induction outputs with
  | nil => exact Passes.nil
  | cons o rest ih =>
    obtain ⟨hrest, hsame⟩ := ih fun o ho => h o (List.mem_cons_of_mem _ ho)
    have ho := h o List.mem_cons_self
    cases o with
    | rejected r => exact ⟨hrest, hsame⟩
    | unnamed start => exact ⟨hrest, hsame⟩
    | event e =>
      cases e with
      | openScope _ _ _ => exact ho.elim
      | closeScope _ => exact ho.elim
      | bare level site => exact ⟨⟨⟨s, rfl, ho, rfl⟩, hrest⟩, hsame⟩
      | targeted level targets site => exact ⟨⟨⟨s, rfl, ho, rfl⟩, hrest⟩, hsame⟩
      | method identifier site => exact ⟨⟨⟨s, rfl, ho, rfl⟩, hrest⟩, hsame⟩
      | singletonMethod identifier site => exact ⟨⟨⟨s, rfl, ho, rfl⟩, hrest⟩, hsame⟩

theorem passes_before : Passes (s.Heard ctx) s.heads
    ((s.before ctx).map (([] : Place), ·)) (s.inner ctx) := by
  rw [before, inner]
  cases hscope : s.scope? ctx with
  | some head => exact ⟨⟨⟨s, rfl, rfl, hscope, rfl⟩, True.intro⟩, rfl⟩
  | none => exact passes_standsAt ctx (standsAt_remark ctx)

theorem passes_after : Passes (s.Heard ctx) (s.inner ctx)
    ((s.after ctx).map (([] : Place), ·)) s.heads := by
  rw [after, inner]
  cases hscope : s.scope? ctx with
  | some head => exact ⟨⟨⟨s, rfl, rfl, head, hscope, rfl⟩, True.intro⟩, rfl⟩
  | none => exact passes_standsAt ctx (standsAt_verdict ctx)

/-- At every event of a walk, the scopes that are open are those around its node, and the
    walk leaves the open scopes as they were. -/
theorem passes_walk (s : Standing) : Passes (s.Heard ctx) s.heads (s.walk ctx) s.heads := by
  induction s using Standing.induction ctx with
  | step s ih =>
    have hsteps : Passes (s.Heard ctx) (s.inner ctx)
        ((s.steps ctx).flatMap fun x => fromChild x.1 (x.2.walk ctx)) (s.inner ctx) := by
      apply Passes.flatMap
      rintro ⟨i, t⟩ hstep
      have hchild := (mem_steps ctx).mp hstep
      have hinner : t.heads = s.inner ctx := by
        obtain ⟨c, role, _, _, rfl⟩ := (child?_eq_some ctx).mp hchild
        rfl
      have hwalk := ih i t hchild
      rw [hinner] at hwalk
      apply hwalk.fromChild
      rintro p e heads ⟨v, hv, hsite, hheads⟩
      exact ⟨v, at?_cons ctx hchild hv, hsite, hheads⟩
    rw [walk_eq]
    exact ((passes_before ctx).append hsteps).append (passes_after ctx)

end Standing

/-! ## The frames at an event -/

/-- Whenever a run takes an event of a walk, the open frames above that of the file are the
    scopes that enclose the node of the event, outermost first, each with its kind and name;
    at a close, the scope that it ends is open as well, innermost. A scope that opens is that
    of the node.

    `p` is the place of the node and `v` how the walk stands there; `trail` are the nodes
    above it. -/
theorem frames_enclose (ctx : Context) (holder : Option Node) (root : Node) :
    (ctx.placedOutputs holder root).map (·.2) = ctx.outputs holder root ∧
    ∀ before p e after, ctx.placedOutputs holder root = before ++ (p, .event e) :: after →
      ∃ v r, (Standing.root holder root).at? ctx p = some v ∧
        root.nodeAt? p = some v.node ∧ e.site = some v.node.site ∧
        ((Standing.root holder root).trail ctx p).map (·.node) = root.above p ∧
        Run.initial.Leads (itemsOf (before.map (·.2))) r ∧
        let enclosing := (.topLevel, none) ::
          ((Standing.root holder root).trail ctx p).filterMap (·.scope? ctx)
        match e with
        | .openScope kind name _ => v.scope? ctx = some (kind, name) ∧
            r.stack.heads.reverse = enclosing
        | .closeScope _ => ∃ own, v.scope? ctx = some own ∧
            r.stack.heads.reverse = enclosing ++ [own]
        | _ => r.stack.heads.reverse = enclosing := by
  refine ⟨ctx.map_snd_placedOutputs holder root, ?_⟩
  intro before p e after hsplit
  have halong := (Standing.passes_walk ctx (.root holder root)).1
  rw [← Context.placedOutputs, hsplit, Along.append_iff] at halong
  obtain ⟨v, hv, hsite, hheads⟩ := halong.2.1
  obtain ⟨hnode, habove, htrail⟩ := Standing.trail_spec ctx hv
  -- the run that takes all events of the walk takes those before this one
  obtain ⟨_, last, _, _, _, _, hlast, _⟩ := ctx.reached_outputs holder root
  rw [← ctx.map_snd_placedOutputs, hsplit, List.map_append, itemsOf_append] at hlast
  obtain ⟨r, hr, _⟩ := Run.Leads.append_iff.mp hlast
  have hframes : r.stack.heads = headsOver [(.topLevel, none)] before :=
    Run.Leads.heads_eq hr
  refine ⟨v, r, hv, hnode, hsite, habove, hr, ?_⟩
  cases e with
  | openScope kind name site =>
    obtain ⟨hown, hheads⟩ := hheads
    refine ⟨hown, ?_⟩
    rw [hframes.trans hheads, htrail]
    rfl
  | closeScope site =>
    obtain ⟨own, hown, hheads⟩ := hheads
    refine ⟨own, hown, ?_⟩
    rw [hframes.trans hheads, List.reverse_cons, htrail]
    rfl
  | _ =>
    rw [hframes.trans hheads, htrail]
    rfl

end MethodVisibility
