/-
  No definition is lost and none is reported twice.

  In a regular tree a walk comes to the children in their order, because the block of a call
  is its last child (`Standing.flatMap_steps_eq`). So the definitions that it reports are those
  at the places that are not hidden, in the order of the tree (`Standing.definitionPlaces_walk`).

  `definitions_reported_once`: the definitions of every regular tree.
-/
import MethodVisibility.Proofs.Hidden

namespace MethodVisibility

/-! ## Children come in their order -/

theorem Context.isSome_callScope? (ctx : Context) (holder : Option Node) (n : Node) :
    (ctx.callScope? holder n).isSome = (ctx.callScope? none n).isSome := by
  unfold callScope?
  split
  · split
    · rfl
    · split <;> rfl
  · rfl

/-- What waits for the rest comes in order if nothing comes after it. -/
theorem flatMap_wait {α β : Type} {l : List α} {waits : α → Bool} {f : α → List β}
    (h : l.Pairwise fun x y => waits x = true → f y = []) :
    (l.flatMap fun x => if waits x = false then f x else []) ++
      (l.flatMap fun x => if waits x = true then f x else []) = l.flatMap f := by
  induction l with
  | nil => rfl
  | cons x rest ih =>
    obtain ⟨hx, hrest⟩ := List.pairwise_cons.mp h
    simp only [List.flatMap_cons]
    cases hwaits : waits x with
    | false => simp [← ih hrest]
    | true =>
      have hnil : ∀ y ∈ rest, f y = [] := fun y hy => hx y hy hwaits
      have hpart : ∀ waiting, (rest.flatMap fun y => if waits y = waiting then f y else []) = [] :=
        fun waiting => List.flatMap_eq_nil_iff.mpr fun y hy => by simp [hnil y hy]
      rw [hpart, hpart, List.flatMap_eq_nil_iff.mpr hnil]
      simp

/-- Positions in a list grow. -/
theorem pairwise_zipIdx {α : Type} (l : List α) (k : Nat) :
    (l.zipIdx k).Pairwise fun x y => x.2 < y.2 := by
  induction l generalizing k with
  | nil => exact List.Pairwise.nil
  | cons c rest ih =>
    rw [List.zipIdx_cons, List.pairwise_cons]
    exact ⟨fun y hy => List.le_snd_of_mem_zipIdx hy, ih (k + 1)⟩

namespace Standing

variable (ctx : Context) {s : Standing}

/-- Nothing comes after a block. -/
theorem atChild_eq_nil_of_waits {β : Type} (hregular : ctx.Regular s.node)
    (hfits : s.role.Fits s.node) (f : Nat → Standing → List β) {x y : Node × Nat}
    (hx : x ∈ s.node.children.zipIdx) (hy : y ∈ s.node.children.zipIdx) (hlt : x.2 < y.2)
    (hwaits : s.waits ctx x = true) : s.atChild ctx f y = [] := by
  have hcx := List.mem_zipIdx_iff_getElem?.mp hx
  have hcy := List.mem_zipIdx_iff_getElem?.mp hy
  obtain ⟨head, hrole⟩ : ∃ head, s.childRole? ctx x.2 x.1 = some (.block head) := by
    unfold waits at hwaits
    split at hwaits
    · next role hrole =>
      cases role with
      | block head => exact ⟨head, hrole⟩
      | _ => cases hwaits
    · cases hwaits
  have hsuits := suits_of_childRole? ctx hregular hfits hcx hrole
  obtain ⟨hcall, hindex⟩ := call_of_roleBelow ctx hsuits.surface.symm
  have hnamed : y.1.named = false := by
    refine hregular.blockLast ?_ x.2 hindex y hy hlt
    rw [← ctx.isSome_callScope? s.holder, hcall]
    rfl
  have hnone : s.childRole? ctx y.2 y.1 = none := by
    rw [← Option.isNone_iff_eq_none, childRole?_isNone ctx hregular hfits hcy]
    simp [hides, hnamed]
  rw [atChild, hnone]

/-- In a regular tree, a walk comes to the children in their order. -/
theorem flatMap_steps_eq {β : Type} (hregular : ctx.Regular s.node)
    (hfits : s.role.Fits s.node) (f : Nat → Standing → List β) :
    (s.steps ctx).flatMap (fun x => f x.1 x.2) =
      s.node.children.zipIdx.flatMap (s.atChild ctx f) := by
  rw [flatMap_steps, gather, gather]
  apply flatMap_wait
  refine (pairwise_zipIdx s.node.children 0).imp_of_mem ?_
  intro x y hx hy hlt hwaits
  exact atChild_eq_nil_of_waits ctx hregular hfits f hx hy hlt hwaits

end Standing

/-! ## The definitions that are said -/

/-- Whether something that is said is a definition. -/
def Output.isDefinition : Output → Bool
  | .event (.method _ _) => true
  | .event (.singletonMethod _ _) => true
  | _ => false

/-- The places of the definitions among what is said. -/
def definitionPlaces (said : List (Place × Output)) : List Place :=
  (said.filter (·.2.isDefinition)).map (·.1)

theorem definitionPlaces_append (xs ys : List (Place × Output)) :
    definitionPlaces (xs ++ ys) = definitionPlaces xs ++ definitionPlaces ys := by
  simp [definitionPlaces]

theorem definitionPlaces_flatMap {α : Type} (xs : List α) (f : α → List (Place × Output)) :
    definitionPlaces (xs.flatMap f) = xs.flatMap fun x => definitionPlaces (f x) := by
  simp [definitionPlaces, List.filter_flatMap, List.map_flatMap]

theorem definitionPlaces_fromChild (i : Nat) (xs : List (Place × Output)) :
    definitionPlaces (Standing.fromChild i xs) = (definitionPlaces xs).map (i :: ·) := by
  simp [definitionPlaces, Standing.fromChild, List.filter_map, Function.comp_def]

theorem Context.isDefinition_definition (ctx : Context) (inSingleton : Bool) (n : Node) :
    (ctx.definition inSingleton n).isDefinition = (ctx.name? n).isSome := by
  unfold definition
  split
  · next hname => rw [hname]; rfl
  · next identifier hname =>
    rw [hname]
    split <;> rfl

namespace Standing

variable (ctx : Context) {s : Standing}

/-- A node that is a scope is no definition. -/
theorem isDefinition_eq_false_of_scope? (hfits : s.role.Fits s.node) {head : ScopeHead}
    (h : s.scope? ctx = some head) : s.node.isDefinition = false := by
  cases hrole : s.role with
  | visited statement =>
    simp only [scope?, hrole] at h
    exact (Bool.or_eq_false_iff.mp (ctx.kind_of_ownScope? h).2.1).1
  | block head => exact Node.isDefinition_of_isNeutral (hfits.isNeutral (by rw [hrole]; rfl))
  | body => simp [scope?, hrole] at h
  | arguments => simp [scope?, hrole] at h
  | argument => simp [scope?, hrole] at h

/-- What is said of a node that is no scope begins with its definition, if it is one. -/
theorem filter_remark (hfits : s.role.Fits s.node) :
    (s.remark ctx).filter (·.isDefinition) =
      if s.node.isDefinition && (ctx.name? s.node).isSome then
        [ctx.definition (inSingletonBody s.scopes) s.node]
      else [] := by
  have hsaid : [ctx.definition (inSingletonBody s.scopes) s.node].filter (·.isDefinition) =
      if (ctx.name? s.node).isSome then [ctx.definition (inSingletonBody s.scopes) s.node]
      else [] := by
    rw [List.filter_cons, ctx.isDefinition_definition]
    rfl
  have hnone : s.node.isDefinition = false → [] =
      if s.node.isDefinition && (ctx.name? s.node).isSome then
        [ctx.definition (inSingletonBody s.scopes) s.node]
      else [] := by
    intro h
    simp [h]
  cases hrole : s.role with
  | visited statement =>
    have hreading := ctx.form_reading s.holder s.node
    simp only [remark, hrole]
    generalize ctx.form s.holder s.node = form at hreading
    cases hreading with
    | scope hown => exact hnone (Bool.or_eq_false_iff.mp (ctx.kind_of_ownScope? hown).2.1).1
    | definition _ hdefinition => simpa [hdefinition] using hsaid
    | @directive level _ hdefinition =>
      rw [← hnone hdefinition]
      dsimp only
      cases ctx.directiveTargets (inSingletonBody s.scopes) level s.node <;> rfl
    | scopeCall _ hdefinition => exact hnone hdefinition
    | @word level _ hdefinition =>
      rw [← hnone hdefinition]
      cases level with
      | none => rfl
      | some level => cases statement <;> rfl
    | plain _ hdefinition => exact hnone hdefinition
  | argument =>
    simp only [remark, hrole]
    cases hdefinition : s.node.isDefinition with
    | true => simpa using hsaid
    | false => rfl
  | block _ | body | arguments =>
    simp only [remark, hrole]
    exact hnone (Node.isDefinition_of_isNeutral (hfits.isNeutral (by rw [hrole]; rfl)))

theorem filter_verdict : (s.verdict ctx).filter (·.isDefinition) = [] := by
  unfold verdict
  split
  · split
    · split <;> rfl
    · rfl
  · rfl

theorem definitionPlaces_here (outputs : List Output) :
    definitionPlaces (outputs.map (([] : Place), ·)) =
      (outputs.filter (·.isDefinition)).map fun _ => [] := by
  simp [definitionPlaces, List.filter_map, Function.comp_def]

theorem definitionPlaces_before (hfits : s.role.Fits s.node) :
    definitionPlaces ((s.before ctx).map (([] : Place), ·)) =
      [([] : Place)].filter (s.reports ctx) := by
  have hreports : s.reports ctx [] = (s.node.isDefinition && (ctx.name? s.node).isSome) := by
    simp [reports, hidden]
  rw [definitionPlaces_here, List.filter_cons, hreports, before]
  cases hscope : s.scope? ctx with
  | some head =>
    rw [isDefinition_eq_false_of_scope? ctx hfits hscope]
    rfl
  | none =>
    simp only [filter_remark ctx hfits]
    cases s.node.isDefinition && (ctx.name? s.node).isSome <;> rfl

theorem definitionPlaces_after :
    definitionPlaces ((s.after ctx).map (([] : Place), ·)) = [] := by
  rw [definitionPlaces_here, after]
  cases s.scope? ctx with
  | some head => rfl
  | none =>
    simp only [filter_verdict]
    rfl

/-- The places below a child that are reported are those that are reported from the child. -/
theorem filter_reports_child (hregular : ctx.Regular s.node) (hfits : s.role.Fits s.node)
    {x : Node × Nat} (hx : x ∈ s.node.children.zipIdx) :
    (x.1.places.map (x.2 :: ·)).filter (s.reports ctx) =
      s.atChild ctx (fun i t => (t.node.places.filter (t.reports ctx)).map (i :: ·)) x := by
  have hc := List.mem_zipIdx_iff_getElem?.mp hx
  have hhides := childRole?_isNone ctx hregular hfits hc
  rw [List.filter_map, atChild]
  cases hrole : s.childRole? ctx x.2 x.1 with
  | none =>
    rw [hrole] at hhides
    have hnever : ∀ p ∈ x.1.places, ¬ (s.reports ctx ∘ (x.2 :: ·)) p = true := by
      intro p _
      simp only [Function.comp, reports, hidden, hc, ← hhides]
      cases s.node.nodeAt? (x.2 :: p) <;> simp
    rw [List.filter_eq_nil_iff.mpr hnever]
    rfl
  | some role =>
    rw [hrole] at hhides
    have hbelow := hidden_below ctx (suits_of_childRole? ctx hregular hfits hc hrole)
    have hsame : ∀ p ∈ x.1.places,
        (s.reports ctx ∘ (x.2 :: ·)) p = (s.below ctx role x.1).reports ctx p := by
      intro p _
      simp only [Function.comp, reports, hidden, hc, ← hhides, hbelow, Node.nodeAt?_cons hc]
      rfl
    rw [List.filter_congr hsame]
    rfl

/-- The definitions that a walk reports are those that are not hidden, in the order of the
    tree. -/
theorem definitionPlaces_walk (s : Standing) (hregular : ∀ v ∈ s.node.nodes, ctx.Regular v)
    (hfits : s.role.Fits s.node) :
    definitionPlaces (s.walk ctx) = s.node.places.filter (s.reports ctx) := by
  induction s using Standing.induction ctx with
  | step s ih =>
    have hnode := hregular s.node s.node.mem_nodes_self
    -- below the node: child by child, those that are hidden contribute nothing on either side
    have hsteps : definitionPlaces
        ((s.steps ctx).flatMap fun x => fromChild x.1 (x.2.walk ctx)) =
        (s.node.children.zipIdx.flatMap fun x => x.1.places.map (x.2 :: ·)).filter
          (s.reports ctx) := by
      rw [flatMap_steps_eq ctx hnode hfits fun i t => fromChild i (t.walk ctx),
        definitionPlaces_flatMap, List.filter_flatMap]
      apply List.flatMap_congr
      intro x hx
      rw [filter_reports_child ctx hnode hfits hx, atChild, atChild]
      cases hrole : s.childRole? ctx x.2 x.1 with
      | none => rfl
      | some role =>
        have hc := List.mem_zipIdx_iff_getElem?.mp hx
        have hchild : s.child? ctx x.2 = some (s.below ctx role x.1) :=
          (child?_eq_some ctx).mpr ⟨x.1, role, hc, hrole, rfl⟩
        have hbelow := ih x.2 (s.below ctx role x.1) hchild
          (fun v hv => hregular v (Node.mem_nodes_of_mem_children (List.mem_of_getElem? hc) hv))
          (suits_of_childRole? ctx hnode hfits hc hrole).fits
        simp only [definitionPlaces_fromChild, hbelow]
    rw [walk_eq, definitionPlaces_append, definitionPlaces_append,
      definitionPlaces_before ctx hfits, definitionPlaces_after, hsteps, List.append_nil,
      Node.places_eq, ← List.filter_append]
    rfl

theorem definition_of_mem_before (hfits : s.role.Fits s.node) {o : Output}
    (h : o ∈ s.before ctx) (hdefinition : o.isDefinition = true) :
    o = ctx.definition (inSingletonBody s.scopes) s.node := by
  unfold before at h
  split at h
  · rw [List.mem_singleton.mp h] at hdefinition
    cases hdefinition
  · have hmem := List.mem_filter.mpr ⟨h, hdefinition⟩
    rw [filter_remark ctx hfits] at hmem
    split at hmem
    · exact List.mem_singleton.mp hmem
    · cases hmem

theorem not_mem_after {o : Output} (hdefinition : o.isDefinition = true) : o ∉ s.after ctx := by
  intro h
  unfold after at h
  split at h
  · rw [List.mem_singleton.mp h] at hdefinition
    cases hdefinition
  · have hmem := List.mem_filter.mpr ⟨h, hdefinition⟩
    rw [filter_verdict] at hmem
    cases hmem

/-- A definition that is said of a place is that of the node there. -/
theorem definition_of_mem (s : Standing) (hregular : ∀ v ∈ s.node.nodes, ctx.Regular v)
    (hfits : s.role.Fits s.node) {p : Place} {o : Output} (h : (p, o) ∈ s.walk ctx)
    (hdefinition : o.isDefinition = true) :
    ∃ v inSingleton, s.node.nodeAt? p = some v ∧ o = ctx.definition inSingleton v := by
  induction s using Standing.induction ctx generalizing p with
  | step s ih =>
    rw [walk_eq, List.mem_append, List.mem_append, List.mem_map, List.mem_map,
      List.mem_flatMap] at h
    rcases h with (⟨_, hbefore, heq⟩ | ⟨⟨i, t⟩, hstep, hbelow⟩) | ⟨_, hafter, heq⟩
    · cases heq
      exact ⟨s.node, _, rfl, definition_of_mem_before ctx hfits hbefore hdefinition⟩
    · obtain ⟨⟨rest, _⟩, hwalk, heq⟩ := List.mem_map.mp hbelow
      cases heq
      have hchild := (mem_steps ctx).mp hstep
      obtain ⟨c, role, hc, hrole, rfl⟩ := (child?_eq_some ctx).mp hchild
      have hnode := hregular s.node s.node.mem_nodes_self
      obtain ⟨v, inSingleton, hv, hsaid⟩ := ih i _ hchild
        (fun v hv => hregular v (Node.mem_nodes_of_mem_children (List.mem_of_getElem? hc) hv))
        (suits_of_childRole? ctx hnode hfits hc hrole).fits hwalk
      exact ⟨v, inSingleton, (Node.nodeAt?_cons hc rest).trans hv, hsaid⟩
    · cases heq
      exact absurd hafter (not_mem_after ctx hdefinition)

end Standing

/-- The definitions that are reported of a tree whose bodies, blocks and arguments are regular:
    in the order of the tree and once each, those at the places of named definitions that are
    not hidden. Each is told by its name and its site. -/
theorem definitions_reported_once (ctx : Context) (holder : Option Node) (root : Node)
    (hregular : ∀ v ∈ root.nodes, ctx.Regular v) :
    (ctx.placedOutputs holder root).map (·.2) = ctx.outputs holder root ∧
    ((ctx.placedOutputs holder root).filter (·.2.isDefinition)).map (·.1) =
      root.places.filter ((Standing.root holder root).reports ctx) ∧
    root.places.Nodup ∧
    ∀ p o, (p, o) ∈ ctx.placedOutputs holder root → o.isDefinition = true →
      ∃ v identifier, root.nodeAt? p = some v ∧ ctx.name? v = some identifier ∧
        (o = .event (.method identifier (some v.site)) ∨
          v.kind = "singleton_method" ∧
            o = .event (.singletonMethod identifier (some v.site))) := by
  refine ⟨ctx.map_snd_placedOutputs holder root, ?_, root.nodup_places, ?_⟩
  · exact Standing.definitionPlaces_walk ctx (.root holder root) hregular True.intro
  · intro p o hmem hdefinition
    obtain ⟨v, inSingleton, hv, rfl⟩ := Standing.definition_of_mem ctx (.root holder root)
      hregular True.intro hmem hdefinition
    rw [ctx.isDefinition_definition] at hdefinition
    obtain ⟨identifier, hname⟩ := Option.isSome_iff_exists.mp hdefinition
    refine ⟨v, identifier, hv, hname, ?_⟩
    simp only [Context.definition, hname]
    split
    · next hkind =>
      right
      exact ⟨by simpa using (Bool.and_eq_true_iff.mp hkind).1, rfl⟩
    · left
      rfl

/-- A node of which only the kind, the field and the octets matter. -/
def sampleNode (kind : String) (field : Option String) (start stop : Nat)
    (children : List Node) : Node :=
  .mk ⟨0, kind, true, field, ⟨start, stop, ⟨0, start⟩, ⟨0, stop⟩⟩⟩ children

/-- The words that the nodes of `sampleTree` point at. -/
def sampleContext : Context :=
  ⟨.ofText "private helpers x y z w", ["helpers"], []⟩

/-- A class with a definition that is the argument of a directive and one that has another in
    it, and a call whose block is a scope with a definition in it. -/
def sampleTree : Node :=
  sampleNode "program" none 0 23 [
    sampleNode "class" none 0 23 [
      sampleNode "constant" (some "name") 16 17 [],
      sampleNode "body_statement" (some "body") 0 23 [
        sampleNode "call" none 0 23 [
          sampleNode "identifier" (some "method") 0 7 [],
          sampleNode "argument_list" (some "arguments") 0 23 [
            sampleNode "method" none 0 23 [sampleNode "identifier" (some "name") 16 17 []]]],
        sampleNode "method" none 0 23 [
          sampleNode "identifier" (some "name") 18 19 [],
          sampleNode "body_statement" (some "body") 0 23 [
            sampleNode "method" none 0 23 [sampleNode "identifier" (some "name") 20 21 []]]],
        sampleNode "comment" none 0 1 []]],
    sampleNode "call" none 0 23 [
      sampleNode "identifier" (some "method") 8 15 [],
      sampleNode "do_block" (some "block") 0 23 [
        sampleNode "body_statement" (some "body") 0 23 [
          sampleNode "method" none 0 23 [sampleNode "identifier" (some "name") 22 23 []]]]]]

/-- Three definitions of `sampleTree` are reported; the one inside another is not. -/
theorem definitions_sampleTree :
    (∀ v ∈ sampleTree.nodes, sampleContext.Regular v) ∧
      ((sampleContext.placedOutputs none sampleTree).filter (·.2.isDefinition)).map (·.1) =
        [[0, 1, 0, 1, 0], [0, 1, 1], [1, 1, 0, 0]] := by
  have hregular : ∀ v ∈ sampleTree.nodes, sampleContext.Regular v := by decide
  refine ⟨hregular, ?_⟩
  exact (definitions_reported_once sampleContext none sampleTree hregular).2.1.trans (by decide)

end MethodVisibility
