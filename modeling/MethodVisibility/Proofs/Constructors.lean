/-
  Calls that make types.

  A call of a constructor with a block is the body of a type (`Context.makesType`). Where a walk
  looks at such a call, what it says of the block is that a type body opens and that it closes,
  and no more: all that is said of a place is what is said of the node there
  (`Standing.saidAt_walk`).

  In a regular tree, a walk looks at every call that is not hidden (`Standing.looksAt_eq`). An
  accepted directive hides none, since no call is accepted as an argument
  (`Context.isCall_of_mem_arguments`). Definitions hide the calls in them, and so do the headers of
  scopes, where a superclass may be made by a call.

  `constructor_calls_open_bodies`: the scopes of all calls that make types.
-/
import MethodVisibility.Proofs.Coverage
import MethodVisibility.Proofs.LexicalScope

namespace MethodVisibility

/-! ## What is said of a place -/

/-- What is said of a place. -/
def saidAt (said : List (Place × Output)) (p : Place) : List Output :=
  (said.filter (·.1 = p)).map (·.2)

theorem saidAt_append (xs ys : List (Place × Output)) (p : Place) :
    saidAt (xs ++ ys) p = saidAt xs p ++ saidAt ys p := by
  simp [saidAt]

theorem saidAt_flatMap {α : Type} (xs : List α) (f : α → List (Place × Output)) (p : Place) :
    saidAt (xs.flatMap f) p = xs.flatMap fun x => saidAt (f x) p := by
  simp [saidAt, List.filter_flatMap, List.map_flatMap]

theorem saidAt_here (outputs : List Output) (p : Place) :
    saidAt (outputs.map (([] : Place), ·)) p = if p = [] then outputs else [] := by
  by_cases hp : p = []
  · simp [saidAt, hp, List.filter_map, Function.comp_def]
  · have hne : ([] : Place) ≠ p := Ne.symm hp
    simp [saidAt, hp, hne, List.filter_map, Function.comp_def]

theorem saidAt_fromChild_nil (i : Nat) (said : List (Place × Output)) :
    saidAt (Standing.fromChild i said) [] = [] := by
  simp [saidAt, Standing.fromChild, List.filter_map, Function.comp_def]

theorem saidAt_fromChild_cons (i j : Nat) (rest : Place) (said : List (Place × Output)) :
    saidAt (Standing.fromChild i said) (j :: rest) = if i = j then saidAt said rest else [] := by
  by_cases h : i = j <;>
    simp [saidAt, Standing.fromChild, List.filter_map, Function.comp_def, h]

namespace Standing

variable (ctx : Context)

/-- Of the children to which a walk comes, only the one at a position. -/
theorem flatMap_steps_single {β : Type} (s : Standing) (i : Nat) (f : Standing → List β) :
    (s.steps ctx).flatMap (fun x => if x.1 = i then f x.2 else []) =
      ((s.child? ctx i).map f).getD [] := by
  have hpart : ∀ waiting, s.gather ctx (fun j t => if j = i then f t else []) waiting =
      ((s.node.children[i]?).map fun c =>
        if s.waits ctx (c, i) = waiting then s.atChild ctx (fun _ t => f t) (c, i) else []).getD
          [] := by
    intro waiting
    have hsingle := flatMap_zipIdx_single s.node.children (some i) fun c =>
      if s.waits ctx (c, i) = waiting then s.atChild ctx (fun _ t => f t) (c, i) else []
    rw [Option.bind_some] at hsingle
    rw [← hsingle, gather]
    apply List.flatMap_congr
    rintro ⟨c, j⟩ -
    by_cases hj : j = i
    · subst hj
      simp [atChild]
    · have hne : some i ≠ some j := fun h => hj (Option.some.inj h).symm
      simp only [atChild, if_neg hj, if_neg hne]
      cases s.childRole? ctx j c <;> simp
  rw [flatMap_steps ctx s fun j t => if j = i then f t else [], hpart, hpart, child?]
  cases s.node.children[i]? with
  | none => rfl
  | some c =>
    have hchild : s.atChild ctx (fun _ t => f t) (c, i) =
        ((s.childRole? ctx i c).map fun role => f (s.below ctx role c)).getD [] := by
      rw [atChild]
      cases s.childRole? ctx i c <;> rfl
    cases hwaits : s.waits ctx (c, i) <;> simp [hwaits, hchild, Function.comp_def]

/-- What a walk says of a place is what it says of the node there before and after what is
    below, if it comes to it. -/
theorem saidAt_walk (s : Standing) (p : Place) :
    saidAt (s.walk ctx) p =
      ((s.at? ctx p).map fun t => t.before ctx ++ t.after ctx).getD [] := by
  induction p generalizing s with
  | nil =>
    rw [walk_eq]
    simp only [saidAt_append, saidAt_flatMap, saidAt_here, saidAt_fromChild_nil]
    simp [at?]
  | cons i rest ih =>
    rw [walk_eq]
    simp only [saidAt_append, saidAt_flatMap, saidAt_here, saidAt_fromChild_cons, ih]
    rw [flatMap_steps_single ctx s i fun t =>
      ((t.at? ctx rest).map fun u => u.before ctx ++ u.after ctx).getD []]
    cases hchild : s.child? ctx i <;> simp [at?, hchild]

end Standing

/-! ## Calls that make types -/

namespace Context

variable (ctx : Context)

/-- Whether a node is a call of a constructor with a block. -/
def makesType (n : Node) : Bool :=
  n.isCall && (n.child? "block").isSome &&
    match n.child? "receiver" with
    | some receiver => String.join [ctx.text receiver, ".", ctx.callee n] ∈ ctx.constructorCalls
    | none => false

theorem callScope?_of_makesType {n : Node} (h : ctx.makesType n = true) (holder : Option Node) :
    ctx.callScope? holder n = some (.typeBody, ctx.boundConstant? holder) := by
  simp only [makesType, Bool.and_eq_true] at h
  obtain ⟨⟨hcall, hblock⟩, hreceiver⟩ := h
  cases hchild : n.child? "receiver" with
  | none => simp [hchild] at hreceiver
  | some receiver =>
    have hmember : String.join [ctx.text receiver, ".", ctx.callee n] ∈ ctx.constructorCalls := by
      simpa [hchild] using hreceiver
    simp only [callScope?, directive?, hcall, hblock, hchild, hmember]
    simp

/-- A call is not accepted as an argument of a directive. -/
theorem argumentTargets_of_isCall {arg : Node} (h : arg.isCall = true) (inSingleton : Bool) :
    ctx.argumentTargets inSingleton arg = .error (.unsupported arg.kind, arg.site) := by
  obtain hkind | hkind | hkind := kind_of_isCall h <;>
    simp [argumentTargets, Node.isNameList, nameOf, Node.isLiteral, hkind] <;> rfl

theorem exists_targets_of_mem {inSingleton : Bool} {args : List Node} {targets : List Target}
    (h : ctx.argumentsTargets inSingleton args = .ok targets) {arg : Node} (harg : arg ∈ args) :
    ∃ found, ctx.argumentTargets inSingleton arg = .ok found := by
  induction args generalizing targets with
  | nil => cases harg
  | cons first rest ih =>
    rw [argumentsTargets] at h
    cases hfirst : ctx.argumentTargets inSingleton first with
    | error e => rw [hfirst] at h; cases h
    | ok found =>
      rcases List.mem_cons.mp harg with rfl | harg
      · exact ⟨found, hfirst⟩
      · rw [hfirst] at h
        cases hrest : ctx.argumentsTargets inSingleton rest with
        | error e => simp only [hrest] at h; cases h
        | ok others => exact ih hrest harg

/-- No argument of an accepted directive is a call. -/
theorem isCall_of_mem_arguments {inSingleton : Bool} {level : Level} {n arg : Node}
    {targets : List Target} (h : ctx.directiveTargets inSingleton level n = .ok targets)
    (harg : arg ∈ arguments n) : arg.isCall = false := by
  obtain ⟨found, hfound⟩ :=
    ctx.exists_targets_of_mem (ctx.argumentsTargets_of_directiveTargets h) harg
  rw [Bool.eq_false_iff]
  intro hcall
  rw [ctx.argumentTargets_of_isCall hcall] at hfound
  cases hfound

end Context

/-! ## Where a walk looks -/

/-- Whether a walk looks at a node of this role. -/
def Role.isVisited : Role → Bool
  | .visited _ => true
  | _ => false

namespace Standing

variable (ctx : Context) {s v : Standing}

/-- Whether a walk looks at the node at a place. -/
def looksAt (s : Standing) (p : Place) : Bool :=
  match s.at? ctx p with
  | some v => v.role.isVisited
  | none => false

theorem at?_append (s : Standing) (p : Place) (i : Nat) :
    s.at? ctx (p ++ [i]) = (s.at? ctx p).bind (·.child? ctx i) := by
  induction p generalizing s with
  | nil =>
    cases hchild : s.child? ctx i <;> simp [at?, hchild]
  | cons j rest ih =>
    cases hchild : s.child? ctx j <;> simp [at?, hchild, ih]

/-- The arguments of an accepted directive are the children of the list that it holds. -/
theorem accepted_of_roleBelow {i : Nat} (h : s.roleBelow ctx i = .arguments) :
    s.isAccepted ctx = true ∧ s.node.fieldIndex? "arguments" = some i := by
  unfold roleBelow at h
  split at h
  · cases h
  · split at h
    · next haccepted => simpa using haccepted
    · split at h
      · split at h <;> cases h
      · cases h

theorem role_of_roleBelow {i : Nat} (h : s.roleBelow ctx i = .argument) : s.role = .arguments := by
  unfold roleBelow at h
  split at h
  · next hrole => exact hrole
  · split at h
    · cases h
    · split at h
      · split at h <;> cases h
      · cases h

/-- A standing as it is in a regular tree: the node fits its role, and if it has to do with an
    accepted directive, then no call is an argument. -/
structure Sound (s : Standing) : Prop where
  fits : s.role.Fits s.node
  arguments : s.role = .arguments → ∀ c ∈ s.node.children, c.isLookedAt = true → c.isCall = false
  argument : s.role = .argument → s.node.isCall = false

theorem sound_root (holder : Option Node) (n : Node) : (root holder n).Sound :=
  ⟨True.intro, nofun, nofun⟩

theorem isCall_of_isAccepted (h : s.isAccepted ctx = true) {list c : Node}
    (hlist : s.node.child? "arguments" = some list) (hc : c ∈ list.children)
    (hlooked : c.isLookedAt = true) : c.isCall = false := by
  unfold isAccepted at h
  split at h
  · next level _ =>
    unfold accepts at h
    split at h
    · next targets htargets =>
      refine ctx.isCall_of_mem_arguments htargets ?_
      simp only [Node.isLookedAt, Bool.and_eq_true, Bool.not_eq_true'] at hlooked
      simp [Context.arguments, hlist, Node.dropComments, Node.namedChildren, hc, hlooked]
    · cases h
  · cases h

theorem Sound.below (h : s.Sound) (hregular : ctx.Regular s.node) {i : Nat} {c : Node} {role : Role}
    (hc : s.node.children[i]? = some c) (hrole : s.childRole? ctx i c = some role) :
    (s.below ctx role c).Sound := by
  have hsuits := suits_of_childRole? ctx hregular h.fits hc hrole
  refine ⟨hsuits.fits, ?_, ?_⟩
  · rintro rfl
    obtain ⟨haccepted, hindex⟩ := accepted_of_roleBelow ctx hsuits.surface.symm
    intro c' hc' hlooked
    exact isCall_of_isAccepted ctx haccepted (Node.child?_of_fieldIndex? hindex hc) hc' hlooked
  · rintro rfl
    have hlist := role_of_roleBelow ctx hsuits.surface.symm
    have hlooked : c.isLookedAt = true := by
      have hseen : s.hides ctx i c = false := by
        rw [← childRole?_isNone ctx hregular h.fits hc, hrole]
        rfl
      simp only [hides, Bool.or_eq_false_iff] at hseen
      simpa [Node.isLookedAt] using hseen.1.1.2
    exact h.arguments hlist c (List.mem_of_getElem? hc) hlooked

theorem Sound.at? (h : s.Sound) (hregular : ∀ n ∈ s.node.nodes, ctx.Regular n) {p : Place}
    (hv : s.at? ctx p = some v) : v.Sound := by
  induction p generalizing s with
  | nil =>
    cases hv
    exact h
  | cons i rest ih =>
    obtain ⟨t, ht, hv⟩ := Option.bind_eq_some_iff.mp hv
    obtain ⟨c, role, hc, hrole, rfl⟩ := (child?_eq_some ctx).mp ht
    refine ih (h.below ctx (hregular _ s.node.mem_nodes_self) hc hrole) ?_ hv
    intro n hn
    exact hregular n (Node.mem_nodes_of_mem_children (List.mem_of_getElem? hc) hn)

/-- A walk looks at every call to which it comes. -/
theorem Sound.isVisited (h : v.Sound) (hcall : v.node.isCall = true) :
    v.role.isVisited = true := by
  cases hrole : v.role with
  | visited statement => rfl
  | argument =>
    rw [h.argument hrole] at hcall
    cases hcall
  | body | arguments | block =>
    have hneutral := Node.kind_of_isNeutral (h.fits.isNeutral (by rw [hrole]; rfl))
    rcases hneutral with hkind | hkind | hkind | hkind | hkind <;>
      simp [Node.isCall, hkind] at hcall

/-- In a regular tree, a walk comes to every place that is not hidden. -/
theorem isSome_at? (h : s.Sound) (hregular : ∀ n ∈ s.node.nodes, ctx.Regular n) {p : Place}
    (hp : (s.node.nodeAt? p).isSome = true) : (s.at? ctx p).isSome = !s.hidden ctx p := by
  induction p generalizing s with
  | nil => rfl
  | cons i rest ih =>
    cases hc : s.node.children[i]? with
    | none => simp [Node.nodeAt?, hc] at hp
    | some c =>
      have hnode := hregular _ s.node.mem_nodes_self
      have hhides := childRole?_isNone ctx hnode h.fits hc
      cases hrole : s.childRole? ctx i c with
      | none =>
        rw [hrole] at hhides
        simp [Standing.at?, child?, hidden, hc, hrole, ← hhides]
      | some role =>
        rw [hrole] at hhides
        rw [Node.nodeAt?_cons hc] at hp
        have hbelow := ih (h.below ctx hnode hc hrole)
          (fun n hn => hregular n (Node.mem_nodes_of_mem_children (List.mem_of_getElem? hc) hn)) hp
        simp [Standing.at?, child?, hidden, hc, hrole, ← hhides, hbelow,
          hidden_below ctx (suits_of_childRole? ctx hnode h.fits hc hrole)]

/-- A walk looks at the calls that are not hidden. -/
theorem looksAt_eq (h : s.Sound) (hregular : ∀ n ∈ s.node.nodes, ctx.Regular n) {p : Place}
    {n : Node} (hn : s.node.nodeAt? p = some n) (hcall : n.isCall = true) :
    s.looksAt ctx p = !s.hidden ctx p := by
  rw [← isSome_at? ctx h hregular (by rw [hn]; rfl), looksAt]
  cases hv : s.at? ctx p with
  | none => rfl
  | some v =>
    have hnode := (trail_spec ctx hv).1
    rw [hn, Option.some.injEq] at hnode
    exact (h.at? ctx hregular hv).isVisited (hnode ▸ hcall)

/-- The node that holds the one at a place. -/
theorem holder_of_at? {p : Place} (hv : s.at? ctx p = some v) :
    v.holder = (s.node.above p).getLast?.or s.holder := by
  induction p generalizing s with
  | nil =>
    cases hv
    rfl
  | cons i rest ih =>
    obtain ⟨t, ht, hv⟩ := Option.bind_eq_some_iff.mp hv
    obtain ⟨c, role, hc, -, rfl⟩ := (child?_eq_some ctx).mp ht
    rw [ih hv, Node.above, hc, List.getLast?_cons, Option.some_or]
    exact Option.or_some

/-- The block of a call that makes a type is a type body. -/
theorem child?_of_makesType (hvisited : v.role.isVisited = true)
    (hmakes : ctx.makesType v.node = true) {b : Nat} {block : Node}
    (hb : v.node.fieldIndex? "block" = some b) (hblock : v.node.children[b]? = some block) :
    v.child? ctx b = some (v.below ctx (.block (.typeBody, ctx.boundConstant? v.holder)) block) := by
  have hhead := ctx.callScope?_of_makesType hmakes v.holder
  have hcall := ctx.isCall_of_callScope? hhead
  obtain ⟨hown, hdefinition, hword⟩ : ctx.ownScope? v.node = none ∧
      v.node.isDefinition = false ∧ v.node.kind ≠ "identifier" := by
    obtain hkind | hkind | hkind := Context.kind_of_isCall hcall <;>
      simp [Context.ownScope?, Node.isDefinition, hkind]
  have hdirective : ctx.directive? v.node = none := by
    cases hlevel : ctx.directive? v.node with
    | none => rfl
    | some level => simp [Context.callScope?, hlevel] at hhead
  have hrole : v.childRole? ctx b block =
      some (.block (.typeBody, ctx.boundConstant? v.holder)) := by
    cases hvrole : v.role with
    | visited statement =>
      simp [childRole?, hvrole, lookedRole?, hown, hdefinition, hword, freeRole?, hdirective,
        openRole?, hhead, hb]
    | _ =>
      rw [hvrole] at hvisited
      cases hvisited
  exact (child?_eq_some ctx).mpr ⟨block, _, hblock, hrole, rfl⟩

end Standing

/-- A call that makes a type, wherever it stands in a tree, if the walk looks at it: all that is
    said of its block is that a type body opens and that it closes, with the constant that the
    call is bound to as its name. In a regular tree the walk looks at the call unless it is
    hidden, and if it is hidden nothing is said of the block. -/
theorem constructor_calls_open_bodies (ctx : Context) (holder : Option Node) (root call : Node)
    (p : Place) (hcall : root.nodeAt? p = some call) (hmakes : ctx.makesType call = true) :
    (ctx.placedOutputs holder root).map (·.2) = ctx.outputs holder root ∧
    ∃ b block, call.fieldIndex? "block" = some b ∧ call.children[b]? = some block ∧
      ((Standing.root holder root).looksAt ctx p = true →
        saidAt (ctx.placedOutputs holder root) (p ++ [b]) =
          [.event (.openScope .typeBody
              (ctx.boundConstant? ((root.above p).getLast?.or holder)) (some block.site)),
            .event (.closeScope (some block.site))]) ∧
      ((∀ n ∈ root.nodes, ctx.Regular n) →
        (Standing.root holder root).looksAt ctx p = !(Standing.root holder root).hidden ctx p ∧
        ((Standing.root holder root).hidden ctx p = true →
          saidAt (ctx.placedOutputs holder root) (p ++ [b]) = [])) := by
  have hhead := ctx.callScope?_of_makesType hmakes none
  have hisCall := ctx.isCall_of_callScope? hhead
  obtain ⟨block, hchild⟩ : ∃ block, call.child? "block" = some block := by
    simp only [Context.makesType, Bool.and_eq_true] at hmakes
    exact Option.isSome_iff_exists.mp hmakes.1.2
  obtain ⟨b, hb, hblock⟩ := Option.bind_eq_some_iff.mp
    ((call.child?_eq_bind "block").symm.trans hchild)
  have hsaid := Standing.saidAt_walk ctx (.root holder root) (p ++ [b])
  rw [Standing.at?_append] at hsaid
  refine ⟨ctx.map_snd_placedOutputs holder root, b, block, hb, hblock, fun hlooks => ?_,
    fun hregular => ⟨?_, fun hhidden => ?_⟩⟩
  · cases hv : (Standing.root holder root).at? ctx p with
    | none => simp [Standing.looksAt, hv] at hlooks
    | some v =>
      have hvisited : v.role.isVisited = true := by simpa [Standing.looksAt, hv] using hlooks
      obtain rfl : call = v.node :=
        Option.some.inj (hcall.symm.trans (Standing.trail_spec ctx hv).1)
      have hopens := Standing.child?_of_makesType ctx hvisited hmakes hb hblock
      rw [hv, Option.bind_some, hopens, Standing.holder_of_at? ctx hv] at hsaid
      exact hsaid
  · exact Standing.looksAt_eq ctx (Standing.sound_root holder root) hregular hcall hisCall
  · have hnone : (Standing.root holder root).at? ctx p = none := by
      have hsome := Standing.isSome_at? ctx (Standing.sound_root holder root) hregular
        (by rw [Standing.root, hcall]; rfl)
      rw [hhidden] at hsome
      simpa using hsome
    rw [hnone] at hsaid
    exact hsaid

/-- The words of `boundTree` and `derivedTree`. -/
def structContext : Context :=
  ⟨.ofText "P Struct new norm", [], ["Struct.new"]⟩

/-- A call of `Struct.new` with a block that defines a method. -/
def structCall (field : Option String) : Node :=
  sampleNode "call" field 2 17 [
    sampleNode "constant" (some "receiver") 2 8 [],
    sampleNode "identifier" (some "method") 9 12 [],
    sampleNode "block" (some "block") 12 17 [
      sampleNode "block_body" (some "body") 13 17 [
        sampleNode "method" none 13 17 [sampleNode "identifier" (some "name") 13 17 []]]]]

/-- `P` is bound to what the call makes. -/
def boundTree : Node :=
  sampleNode "program" none 0 17 [
    sampleNode "assignment" none 0 17 [
      sampleNode "constant" (some "left") 0 1 [], structCall (some "right")]]

/-- The block of the call in `boundTree` is the body of `P`. -/
theorem constructor_call_of_boundTree :
    boundTree.nodeAt? [0, 1] = some (structCall (some "right")) ∧
      structContext.makesType (structCall (some "right")) = true ∧
      saidAt (structContext.placedOutputs none boundTree) [0, 1, 2] =
        [.event (.openScope .typeBody (some "P") (some ⟨1, some 1, 12⟩)),
          .event (.closeScope (some ⟨1, some 1, 12⟩))] := by
  have hcall : boundTree.nodeAt? [0, 1] = some (structCall (some "right")) := rfl
  have hmakes : structContext.makesType (structCall (some "right")) = true := by decide
  have hregular : ∀ n ∈ boundTree.nodes, structContext.Regular n := by decide
  obtain ⟨-, b, block, hb, hblock, hopens, hlooks⟩ :=
    constructor_calls_open_bodies structContext none boundTree _ [0, 1] hcall hmakes
  obtain rfl : 2 = b := Option.some.inj ((by decide : _ = _).symm.trans hb)
  cases hblock
  refine ⟨hcall, hmakes, (hopens ?_).trans (by decide)⟩
  rw [(hlooks hregular).1]
  decide

/-- A class `P` whose superclass the call makes. -/
def derivedTree : Node :=
  sampleNode "program" none 0 17 [
    sampleNode "class" none 0 17 [
      sampleNode "constant" (some "name") 0 1 [],
      sampleNode "superclass" (some "superclass") 2 17 [structCall none]]]

/-- The call in `derivedTree` makes a type and stands in no definition, but its block opens no
    scope and the method in it is lost: all that happens is that `P` opens and closes. -/
theorem superclass_call_opens_nothing :
    (∀ n ∈ derivedTree.nodes, structContext.Regular n) ∧
      derivedTree.nodeAt? [0, 1, 0] = some (structCall none) ∧
      (structCall none).named = true ∧ structContext.makesType (structCall none) = true ∧
      (derivedTree.above [0, 1, 0]).all (!·.isDefinition) = true ∧
      structContext.outputs none derivedTree =
        [.event (.openScope .typeBody (some "P") (some ⟨1, some 1, 0⟩)),
          .event (.closeScope (some ⟨1, some 1, 0⟩))] := by
  refine ⟨by decide, rfl, rfl, by decide, by decide, ?_⟩
  decide +kernel

end MethodVisibility
