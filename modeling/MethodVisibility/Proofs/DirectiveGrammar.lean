/-
  The grammar of directive calls.

  `Context.Spells` says which nodes are names, and which name each of them spells;
  `Context.Argument` which nodes a directive takes as arguments, and the targets that they give;
  `Context.DirectiveCall` which calls are directives as a whole. None of them knows of an
  objection: what they do not derive is no directive.

  The reader accepts what the grammar derives, with the same targets
  (`Context.directiveTargets_eq_ok_iff`), level by level: names (`nameOf_eq_ok_iff`), lists of
  names, arguments and calls.

  `directive_grammar`: and what a walk then says of the call are the definitions that stand among
  its arguments, and one event for the call.
-/
import Mathlib.Data.List.Forall2
import MethodVisibility.Proofs.Coverage
import MethodVisibility.Proofs.Results

namespace MethodVisibility

namespace Context

/-! ## The grammar -/

/-- The node is a name: a symbol, with or without its colon, a literal with plain parts, or a word
    of a word list. Of these only a symbol may be empty. -/
inductive Spells (ctx : Context) (n : Node) : String → Prop
  | symbol {name : String} (kind : n.kind = "simple_symbol") (text : ctx.text n = ":" ++ name) :
      Spells ctx n name
  | plainSymbol (kind : n.kind = "simple_symbol") (text : ∀ name, ctx.text n ≠ ":" ++ name) :
      Spells ctx n (ctx.text n)
  | literal (kind : n.kind ∈ ["string", "delimited_symbol", "bare_symbol", "bare_string"])
      (parts : n.namedChildren ≠ [])
      (plain : ∀ part ∈ n.namedChildren, part.kind = "string_content")
      (nonempty : String.join (n.namedChildren.map ctx.text) ≠ "") :
      Spells ctx n (String.join (n.namedChildren.map ctx.text))
  | word (kind : n.kind ∈ ["bare_symbol", "bare_string"]) (parts : n.namedChildren = [])
      (nonempty : ctx.text n ≠ "") : Spells ctx n (ctx.text n)

/-- The node is an argument of a directive where these scopes are open: a definition, a name or a
    list of names. -/
inductive Argument (ctx : Context) (scopes : List ScopeKind) (arg : Node) : List Target → Prop
  | method (kind : arg.kind = "method") : Argument ctx scopes arg [.definition arg]
  | singletonMethod (kind : arg.kind = "singleton_method")
      (inside : scopes.head? = some .singletonBody) : Argument ctx scopes arg [.definition arg]
  | name {name : String} (spells : ctx.Spells arg name) : Argument ctx scopes arg [.name name]
  | list {names : List String} (kind : arg.kind ∈ ["array", "symbol_array", "string_array"])
      (elements : List.Forall₂ ctx.Spells (Node.dropComments arg.namedChildren) names) :
      Argument ctx scopes arg (names.map .name)

/-- The call is a directive: it has no block, and either no arguments or arguments that give a
    target. -/
inductive DirectiveCall (ctx : Context) (scopes : List ScopeKind) (call : Node) :
    List Target → Prop
  | bare (block : call.child? "block" = none)
      (empty : ∀ list ∈ call.child? "arguments", Node.dropComments list.namedChildren = []) :
      DirectiveCall ctx scopes call []
  | targeted {list : Node} {found : List (List Target)} (block : call.child? "block" = none)
      (held : call.child? "arguments" = some list)
      (args : List.Forall₂ (ctx.Argument scopes) (Node.dropComments list.namedChildren) found)
      (some : found.flatten ≠ []) : DirectiveCall ctx scopes call found.flatten

/-- The event of a definition in the place of a name. It is an ordinary method: one with a receiver
    of its own is only an argument inside a singleton body. -/
def inlineMethod? (ctx : Context) : Target → Option Event
  | .name _ => none
  | .definition n => (ctx.name? n).map fun identifier => .method identifier (some n.site)

variable {ctx : Context} {scopes : List ScopeKind}

/-! ## Names -/

/-- A name is a symbol or a literal. -/
theorem Spells.kind {n : Node} {name : String} (h : ctx.Spells n name) :
    n.kind = "simple_symbol" ∨ n.isLiteral = true := by
  cases h with
  | symbol kind => exact .inl kind
  | plainSymbol kind => exact .inl kind
  | literal kind => exact .inr (by simpa [Node.isLiteral] using kind)
  | word kind =>
    right
    rcases List.mem_pair.mp kind with kind | kind <;> simp [Node.isLiteral, kind]

theorem eq_colon_append_iff {text name : String} :
    text = ":" ++ name ↔ text.toList = ':' :: name.toList := by
  rw [← String.toList_inj, String.toList_append]
  rfl

/-- A symbol spells its text, without the colon if there is one. -/
theorem spells_symbol_iff {n : Node} (kind : n.kind = "simple_symbol") {name : String} :
    ctx.Spells n name ↔ ctx.symbolName n = name := by
  have hcolon : ∀ rest : String, ctx.text n = ":" ++ rest → ctx.symbolName n = rest := by
    intro rest htext
    simp [symbolName, eq_colon_append_iff.mp htext]
  have hplain : (∀ rest, ctx.text n ≠ ":" ++ rest) → ctx.symbolName n = ctx.text n := by
    intro hnone
    unfold symbolName
    dsimp only
    split
    · next rest htext =>
      have hrest : ctx.text n = ":" ++ String.ofList rest := by
        rw [eq_colon_append_iff, htext, String.toList_ofList]
      exact absurd hrest (hnone _)
    · exact String.ofList_toList
  constructor
  · intro h
    cases h with
    | symbol _ htext => exact hcolon name htext
    | plainSymbol _ htext => exact hplain htext
    | literal hkind => simp [kind] at hkind
    | word hkind => simp [kind] at hkind
  · rintro rfl
    by_cases h : ∃ rest, ctx.text n = ":" ++ rest
    · obtain ⟨rest, htext⟩ := h
      rw [hcolon rest htext]
      exact .symbol kind htext
    · have hnone : ∀ rest, ctx.text n ≠ ":" ++ rest := fun rest htext => h ⟨rest, htext⟩
      rw [hplain hnone]
      exact .plainSymbol kind hnone

/-- A literal spells the text of its parts, or its own if it is a word without parts. -/
theorem spells_literal_iff {n : Node} (literal : n.isLiteral = true) {name : String} :
    ctx.Spells n name ↔ (∀ part ∈ n.namedChildren, part.kind = "string_content") ∧
      ctx.literalText n ≠ "" ∧ ctx.literalText n = name := by
  have hkind : n.kind ∈ ["string", "delimited_symbol", "bare_symbol", "bare_string"] := by
    simpa [Node.isLiteral] using literal
  have hsymbol : n.kind ≠ "simple_symbol" := by
    intro heq
    simp [heq] at hkind
  by_cases hparts : n.namedChildren = []
  · have htext : ctx.literalText n = if n.isBareWord then ctx.text n else "" := by
      simp [literalText, hparts]
    constructor
    · intro h
      cases h with
      | symbol kind => exact absurd kind hsymbol
      | plainSymbol kind => exact absurd kind hsymbol
      | literal _ parts => exact absurd hparts parts
      | word kind _ nonempty =>
        have hword : n.isBareWord = true := by simpa [Node.isBareWord] using kind
        rw [htext, if_pos hword, hparts]
        exact ⟨by simp, nonempty, rfl⟩
    · rintro ⟨-, hnonempty, rfl⟩
      cases hword : n.isBareWord with
      | false => simp [htext, hword] at hnonempty
      | true =>
        rw [htext, if_pos hword] at hnonempty ⊢
        exact .word (by simpa [Node.isBareWord] using hword) hparts hnonempty
  · have htext : ctx.literalText n = String.join (n.namedChildren.map ctx.text) := by
      unfold literalText
      split
      · next hnone => exact absurd hnone hparts
      · rfl
    rw [htext]
    constructor
    · intro h
      cases h with
      | symbol kind => exact absurd kind hsymbol
      | plainSymbol kind => exact absurd kind hsymbol
      | literal _ _ plain nonempty => exact ⟨plain, nonempty, rfl⟩
      | word _ parts => exact absurd parts hparts
    · rintro ⟨hplain, hnonempty, rfl⟩
      exact .literal hkind hparts hplain hnonempty

theorem nameOf_eq_ok_iff {n : Node} {name : String} :
    ctx.nameOf n = .ok name ↔ ctx.Spells n name := by
  unfold nameOf
  split
  · next hsymbol => rw [spells_symbol_iff hsymbol, Except.ok.injEq]
  · next hsymbol =>
    split
    · next hliteral =>
      rw [spells_literal_iff hliteral]
      split
      · next hparts =>
        obtain ⟨part, hpart, hkind⟩ := List.any_eq_true.mp hparts
        refine iff_of_false nofun fun h => ?_
        simp [h.1 part hpart] at hkind
      · next hparts =>
        have hplain : ∀ part ∈ n.namedChildren, part.kind = "string_content" := by
          simpa using hparts
        split
        · next hempty => exact iff_of_false nofun fun h => h.2.1 hempty
        · next hempty => simpa [hempty] using fun _ => hplain
    · next hliteral =>
      refine iff_of_false nofun fun h => ?_
      exact h.kind.elim hsymbol hliteral

/-! ## Arguments -/

theorem namesOf_cons (n : Node) (rest : List Node) :
    ctx.namesOf (n :: rest) =
      (ctx.nameOf n).bind fun name => (ctx.namesOf rest).map (name :: ·) := by
  rw [namesOf]
  cases ctx.nameOf n <;> rfl

theorem argumentsTargets_cons (inSingleton : Bool) (arg : Node) (rest : List Node) :
    ctx.argumentsTargets inSingleton (arg :: rest) =
      (ctx.argumentTargets inSingleton arg).bind fun targets =>
        (ctx.argumentsTargets inSingleton rest).map (targets ++ ·) := by
  rw [argumentsTargets]
  cases ctx.argumentTargets inSingleton arg <;> rfl

/-- The names of a list are accepted if each element is a name. -/
theorem namesOf_eq_ok_iff {nodes : List Node} {names : List String} :
    ctx.namesOf nodes = .ok names ↔ List.Forall₂ ctx.Spells nodes names := by
  induction nodes generalizing names with
  | nil =>
    rw [namesOf, Except.ok.injEq, List.forall₂_nil_left_iff]
    exact eq_comm
  | cons n rest ih =>
    rw [namesOf_cons, Except.bind_map_eq_ok_iff, List.forall₂_cons_left_iff]
    simp only [nameOf_eq_ok_iff, ih, @eq_comm _ _ names]

/-- A name is neither a definition nor a list. -/
theorem Spells.plain {n : Node} {name : String} (h : ctx.Spells n name) :
    n.isDefinition = false ∧ n.isNameList = false := by
  rcases h.kind with hkind | hliteral
  · simp [Node.isDefinition, Node.isNameList, hkind]
  · simp only [Node.isLiteral, List.mem_cons, List.not_mem_nil, or_false,
      decide_eq_true_eq] at hliteral
    rcases hliteral with hkind | hkind | hkind | hkind <;>
      simp [Node.isDefinition, Node.isNameList, hkind]

theorem argumentTargets_of_plain {arg : Node} (hdefinition : arg.isDefinition = false)
    (hlist : arg.isNameList = false) (inSingleton : Bool) :
    ctx.argumentTargets inSingleton arg = (ctx.nameOf arg).map fun name => [.name name] := by
  simp only [Node.isDefinition, Bool.or_eq_false_iff, beq_eq_false_iff_ne] at hdefinition
  rw [argumentTargets, if_neg hdefinition.1, if_neg hdefinition.2, if_neg (by simp [hlist])]

theorem argumentTargets_of_isNameList {arg : Node} (hlist : arg.isNameList = true)
    (inSingleton : Bool) :
    ctx.argumentTargets inSingleton arg =
      (ctx.namesOf (Node.dropComments arg.namedChildren)).map (·.map .name) := by
  have hkind : arg.kind ≠ "method" ∧ arg.kind ≠ "singleton_method" := by
    constructor <;> intro heq <;> simp [Node.isNameList, heq] at hlist
  rw [argumentTargets, if_neg hkind.1, if_neg hkind.2, if_pos hlist]

theorem argumentTargets_eq_ok_iff {arg : Node} {targets : List Target} :
    ctx.argumentTargets (inSingletonBody scopes) arg = .ok targets ↔
      ctx.Argument scopes arg targets := by
  constructor
  · intro h
    unfold argumentTargets at h
    split at h
    · next hmethod =>
      cases h
      exact .method hmethod
    · split at h
      · next hsingleton =>
        split at h
        · next hinside =>
          cases h
          exact .singletonMethod hsingleton (by simpa [inSingletonBody] using hinside)
        · cases h
      · split at h
        · next hlist =>
          obtain ⟨names, hnames, rfl⟩ := Except.map_eq_ok_iff.mp h
          exact .list (by simpa [Node.isNameList] using hlist) (namesOf_eq_ok_iff.mp hnames)
        · obtain ⟨name, hname, rfl⟩ := Except.map_eq_ok_iff.mp h
          exact .name (nameOf_eq_ok_iff.mp hname)
  · intro h
    cases h with
    | method kind => rw [argumentTargets, if_pos kind]
    | singletonMethod kind inside => simp [argumentTargets, kind, inSingletonBody, inside]
    | name spells =>
      obtain ⟨hdefinition, hlist⟩ := spells.plain
      rw [argumentTargets_of_plain hdefinition hlist, Except.map_eq_ok_iff]
      exact ⟨_, nameOf_eq_ok_iff.mpr spells, rfl⟩
    | list kind elements =>
      have hlist : arg.isNameList = true := by simpa [Node.isNameList] using kind
      rw [argumentTargets_of_isNameList hlist, Except.map_eq_ok_iff]
      exact ⟨_, namesOf_eq_ok_iff.mpr elements, rfl⟩

/-- The targets of arguments are those of each, in order. -/
theorem argumentsTargets_eq_ok_iff {args : List Node} {targets : List Target} :
    ctx.argumentsTargets (inSingletonBody scopes) args = .ok targets ↔
      ∃ found, List.Forall₂ (ctx.Argument scopes) args found ∧ found.flatten = targets := by
  induction args generalizing targets with
  | nil => simp [argumentsTargets]
  | cons arg rest ih =>
    rw [argumentsTargets_cons, Except.bind_map_eq_ok_iff]
    simp only [argumentTargets_eq_ok_iff, ih, List.forall₂_cons_left_iff]
    constructor
    · rintro ⟨first, others, hfirst, ⟨found, hfound, rfl⟩, rfl⟩
      exact ⟨first :: found, ⟨first, found, hfirst, hfound, rfl⟩, rfl⟩
    · rintro ⟨_, ⟨first, found, hfirst, hfound, rfl⟩, rfl⟩
      exact ⟨first, found.flatten, hfirst, ⟨found, hfound, rfl⟩, rfl⟩

/-! ## Calls -/

theorem arguments_eq_nil_iff {call : Node} :
    arguments call = [] ↔
      ∀ list ∈ call.child? "arguments", Node.dropComments list.namedChildren = [] := by
  rw [arguments]
  cases call.child? "arguments" <;> simp

/-- How a call without a block is read. -/
theorem targets_of_block_none {call : Node} (h : call.child? "block" = none)
    (inSingleton : Bool) :
    ctx.targets inSingleton call =
      if (arguments call).isEmpty then .ok []
      else (ctx.argumentsTargets inSingleton (arguments call)).bind fun found =>
        if found.isEmpty then .error (.namesNoMethods, call.site) else .ok found := by
  unfold Context.targets
  rw [h]
  cases arguments call with
  | nil => rfl
  | cons arg rest =>
    cases hfound : ctx.argumentsTargets inSingleton (arg :: rest) with
    | error objection => simp [hfound, Except.bind]
    | ok found => cases found <;> simp [hfound, Except.bind]

/-- The reader accepts the calls that are directives, with the targets that the grammar gives. -/
theorem targets_eq_ok_iff {call : Node} {targets : List Target} :
    ctx.targets (inSingletonBody scopes) call = .ok targets ↔
      ctx.DirectiveCall scopes call targets := by
  constructor
  · intro h
    cases hblock : call.child? "block" with
    | some block => simp [Context.targets, hblock] at h
    | none =>
      rw [targets_of_block_none hblock] at h
      split at h
      · next hnone =>
        cases h
        exact .bare hblock (arguments_eq_nil_iff.mp (List.isEmpty_iff.mp hnone))
      · next hsome =>
        obtain ⟨list, hheld⟩ : ∃ list, call.child? "arguments" = some list := by
          cases hheld : call.child? "arguments" with
          | none => simp [arguments, hheld] at hsome
          | some list => exact ⟨list, rfl⟩
        cases hread : ctx.argumentsTargets (inSingletonBody scopes) (arguments call) with
        | error objection => rw [hread] at h; cases h
        | ok _ =>
          obtain ⟨found, hargs, rfl⟩ := argumentsTargets_eq_ok_iff.mp hread
          rw [hread] at h
          simp only [Except.bind] at h
          split at h
          · cases h
          · next hne =>
            cases h
            rw [arguments, hheld] at hargs
            exact .targeted hblock hheld hargs (by simpa using hne)
  · intro h
    cases h with
    | bare block empty =>
      rw [targets_of_block_none block, arguments_eq_nil_iff.mpr empty]
      rfl
    | @targeted list found block held args some =>
      have hargs : arguments call = Node.dropComments list.namedChildren := by
        rw [arguments, held]
      have hsome : arguments call ≠ [] := by
        intro hnil
        rw [← hargs, hnil, List.forall₂_nil_left_iff] at args
        exact some (by rw [args]; rfl)
      have hread := argumentsTargets_eq_ok_iff.mpr ⟨found, args, rfl⟩
      rw [targets_of_block_none block, if_neg (by simpa using hsome), hargs, hread]
      exact if_neg (by simpa using some)

theorem directiveTargets_eq_ok_iff {level : Level} {call : Node} {targets : List Target} :
    ctx.directiveTargets (inSingletonBody scopes) level call = .ok targets ↔
      ctx.DirectiveCall scopes call targets := by
  rw [← targets_eq_ok_iff, directiveTargets]
  cases ctx.targets (inSingletonBody scopes) call <;> simp [Except.mapError]

/-! ## What a walk says of a directive -/

theorem form_of_directive? {call : Node} {level : Level} (h : ctx.directive? call = some level)
    (holder : Option Node) : ctx.form holder call = .directive level := by
  have hcall := ctx.isCall_of_directive? h
  obtain ⟨hreceiver, hlevel⟩ : call.child? "receiver" = none ∧
      Level.ofWord? (ctx.callee call) = some level := by
    simpa [directive?, hcall] using h
  have hform : ctx.form holder call = ctx.callForm holder call := by
    obtain hkind | hkind | hkind := kind_of_isCall hcall <;>
      simp [form, Node.isDefinition, hcall, hkind]
  rw [hform, callForm, hreceiver, hlevel]

/-- An argument that is a definition is said as an ordinary method. -/
theorem Argument.eventsOf_definitions {arg : Node} {targets : List Target}
    (h : ctx.Argument scopes arg targets) :
    eventsOf (ctx.definitions (inSingletonBody scopes) targets) =
      targets.filterMap ctx.inlineMethod? := by
  have hsingle : ¬ (arg.kind = "singleton_method" ∧ inSingletonBody scopes = false) →
      eventsOf (ctx.definitions (inSingletonBody scopes) [.definition arg]) =
        [Target.definition arg].filterMap ctx.inlineMethod? := by
    intro hordinary
    cases hname : ctx.name? arg with
    | none => simp [definitions, definition, inlineMethod?, hname, eventsOf, Output.event?]
    | some identifier =>
      simp [definitions, definition, inlineMethod?, hname, hordinary, eventsOf, Output.event?]
  cases h with
  | method kind => exact hsingle (by simp [kind])
  | singletonMethod kind inside => exact hsingle (by simp [inSingletonBody, inside])
  | name spells => rfl
  | @list names kind elements =>
    rw [definitions_names, List.filterMap_map, eventsOf_nil, List.filterMap_eq_nil_iff.mpr]
    intro name _
    rfl

theorem DirectiveCall.eventsOf_definitions {call : Node} {targets : List Target}
    (h : ctx.DirectiveCall scopes call targets) :
    eventsOf (ctx.definitions (inSingletonBody scopes) targets) =
      targets.filterMap ctx.inlineMethod? := by
  have hall : ∀ {args : List Node} {found : List (List Target)},
      List.Forall₂ (ctx.Argument scopes) args found →
      eventsOf (ctx.definitions (inSingletonBody scopes) found.flatten) =
        found.flatten.filterMap ctx.inlineMethod? := by
    intro args found hargs
    induction hargs with
    | nil => rfl
    | cons arg _ ih =>
      rw [List.flatten_cons, definitions_append, eventsOf_append, List.filterMap_append, ih,
        arg.eventsOf_definitions]
  cases h with
  | bare block empty => rfl
  | targeted block held args some => exact hall args

/-- What is said of definitions is no rejection. -/
theorem rejectionsOf_definitions (inSingleton : Bool) (targets : List Target) :
    rejectionsOf (ctx.definitions inSingleton targets) = [] := by
  rw [rejectionsOf, List.filterMap_eq_nil_iff]
  intro output houtput
  obtain ⟨target, -, htarget⟩ := List.mem_filterMap.mp houtput
  cases target with
  | name identifier => cases htarget
  | definition n =>
    cases htarget
    unfold definition
    split
    · rfl
    · split <;> rfl

end Context

/-- A call without a receiver of a method that spells a level, in whatever scopes: the reader
    accepts it if the grammar makes it a directive, with the targets that the grammar gives, and
    only then. A walk then says a method for each named definition among the targets, in their
    order, and after them one event at the site of the call: it is bare if there are no targets,
    and else it has the names that they give. Nothing is rejected, and whatever is to be looked at
    next comes next. -/
theorem directive_grammar (ctx : Context) (call : Node) (level : Level)
    (hcall : ctx.directive? call = some level) (scopes : List ScopeKind) :
    (∀ targets, ctx.directiveTargets (inSingletonBody scopes) level call = .ok targets ↔
      ctx.DirectiveCall scopes call targets) ∧
    ∀ targets, ctx.DirectiveCall scopes call targets → ∀ holder statement, ∃ outputs,
      Settles ctx scopes [.visit holder call statement] outputs ∧
      eventsOf outputs = targets.filterMap ctx.inlineMethod? ++
        [if targets.isEmpty then .bare level (some call.site)
          else .targeted level (ctx.targetNames targets) (some call.site)] ∧
      rejectionsOf outputs = [] := by
  refine ⟨fun targets => Context.directiveTargets_eq_ok_iff, ?_⟩
  intro targets hderived holder statement
  have hread : ctx.directiveTargets (inSingletonBody scopes) level call = .ok targets :=
    Context.directiveTargets_eq_ok_iff.mpr hderived
  have hstep : ctx.step scopes (.visit holder call statement) =
      ⟨ctx.direct (inSingletonBody scopes) level call.site targets, scopes, []⟩ := by
    simp [Context.step, Context.visit, Context.form_of_directive? hcall holder, hread]
  have hsettles := Settles.of_step hstep Settles.nil
  rw [List.append_nil] at hsettles
  refine ⟨_, hsettles, ?_⟩
  cases targets with
  | nil => exact ⟨rfl, rfl⟩
  | cons target rest =>
    have hsaid : ctx.direct (inSingletonBody scopes) level call.site (target :: rest) =
        ctx.definitions (inSingletonBody scopes) (target :: rest) ++
          [.event (.targeted level (ctx.targetNames (target :: rest)) (some call.site))] := rfl
    rw [hsaid, eventsOf_append, rejectionsOf_append, hderived.eventsOf_definitions,
      ctx.rejectionsOf_definitions]
    exact ⟨rfl, rfl⟩

/-- The words of `mixedCall`. -/
def mixedContext : Context :=
  ⟨.ofText "private :a b c d", [], []⟩

/-- A directive with a symbol, a comment, a definition on a receiver of its own, an empty list and
    a list of two words, one of which has a part. -/
def mixedCall : Node :=
  sampleNode "call" none 0 16 [
    sampleNode "identifier" (some "method") 0 7 [],
    sampleNode "argument_list" (some "arguments") 8 16 [
      sampleNode "simple_symbol" none 8 10 [],
      sampleNode "comment" none 8 10 [],
      sampleNode "singleton_method" none 11 12 [sampleNode "identifier" (some "name") 11 12 []],
      sampleNode "array" none 12 12 [],
      sampleNode "string_array" none 13 16 [
        sampleNode "bare_string" none 13 14 [sampleNode "string_content" none 13 14 []],
        sampleNode "bare_string" none 15 16 []]]]

/-- Inside a singleton body, `mixedCall` is a directive for four names, one of them defined on the
    way. -/
theorem directive_grammar_mixedCall :
    mixedContext.directive? mixedCall = some .priv ∧
      ∃ targets outputs,
        mixedContext.DirectiveCall [.singletonBody, .topLevel] mixedCall targets ∧
        Settles mixedContext [.singletonBody, .topLevel] [.visit none mixedCall true] outputs ∧
        eventsOf outputs = [.method "b" (some ⟨1, some 1, 11⟩),
          .targeted .priv ["a", "b", "c", "d"] (some ⟨1, some 1, 0⟩)] := by
  have hcall : mixedContext.directive? mixedCall = some .priv := by decide
  obtain ⟨haccepts, hwalk⟩ :=
    directive_grammar mixedContext mixedCall .priv hcall [.singletonBody, .topLevel]
  have hderived := (haccepts _).mp rfl
  obtain ⟨outputs, hsettles, hevents, -⟩ := hwalk _ hderived none true
  exact ⟨hcall, _, outputs, hderived, hsettles, hevents.trans (by decide)⟩

end MethodVisibility
