/-
  Histories of a stack.

  A history is any list of operations on a fresh stack, refused ones included. `Stack.Effect` lists
  what one operation does, with the condition under which it is refused, and `Stack.effect_outcome`
  says that there is nothing else. A refused operation gives no stack, so what it leaves behind is
  not seen there: `Stack.Op.play` performs an operation in place and step by step, and whatever is
  refused is refused before anything is changed (`Stack.Op.run_play`). A history in place is thus
  the same (`Stack.playAll_eq_history`).

  `logsAfter` keeps for every open frame what has been written into it since it opened, with no
  table: two facts on a table are said through it. The site of a name is the first that was written
  for it (`Table.site?_ofWrites`), and the names with a site stand in the order in which they first
  got one (`Table.definedNames_ofWrites`).

  `Stack.Kept` is the invariant: the kinds, the singleton flags and the tables of the open frames.
  Every operation keeps it (`Stack.Kept.after`). A frame is known by its height on the stack; as
  long as it stays open it only gains sites (`Stack.ages_afterAll`).

  `frames_of_history`: this for every history, with what each further operation can change.
-/
import Mathlib.Data.List.Forall2
import Mathlib.Data.List.Induction
import MethodVisibility.Proofs.Reading

namespace MethodVisibility

/-! ## What is written into a table -/

/-- A level that is written for a name, at the site of a definition or at none. -/
structure Write where
  name : String
  level : Level
  site : Option Site
deriving DecidableEq, Repr

/-- The first site that is written for a name. -/
def firstSite? (writes : List Write) (name : String) : Option Site :=
  writes.findSome? fun w => if w.name = name then w.site else none

/-- The names for which a site is written, in the order in which this first happens. -/
def sitedNames (writes : List Write) : List String :=
  ((writes.filter (·.site.isSome)).map (·.name)).eraseDups

namespace Table

/-- The table that writes leave, oldest first. -/
def ofWrites (writes : List Write) : Table :=
  writes.foldl (fun t w => t.assign w.name w.level w.site) .empty

theorem ofWrites_concat (writes : List Write) (w : Write) :
    ofWrites (writes ++ [w]) = (ofWrites writes).assign w.name w.level w.site := by
  simp [ofWrites]

theorem nodup_names_ofWrites (writes : List Write) : (ofWrites writes).names.Nodup := by
  induction writes using List.reverseRecOn with
  | nil => simp [ofWrites]
  | append_singleton writes w ih =>
    rw [ofWrites_concat]
    exact nodup_names_assign ih _ _ _

theorem site?_ofWrites (writes : List Write) (name : String) :
    (ofWrites writes).site? name = firstSite? writes name := by
  induction writes using List.reverseRecOn with
  | nil => rfl
  | append_singleton writes w ih =>
    rw [ofWrites_concat, site?_assign, ih, firstSite?, firstSite?, List.findSome?_append]
    by_cases hname : name = w.name
    · simp [hname]
    · simp [hname, Ne.symm hname]

theorem definedNames_ofWrites (writes : List Write) :
    (ofWrites writes).definedNames = sitedNames writes := by
  induction writes using List.reverseRecOn with
  | nil => rfl
  | append_singleton writes w ih =>
    have hnodup := nodup_names_ofWrites writes
    rw [ofWrites_concat, definedNames_assign hnodup]
    cases hsite : w.site with
    | none => simp [ih, sitedNames, List.filter_append, hsite]
    | some site =>
      -- a name has a site already exactly if one was written for it before
      have hold : ((ofWrites writes).site? w.name).isSome ↔
          w.name ∈ (writes.filter (·.site.isSome)).map (·.name) := by
        rw [← mem_definedNames_iff hnodup, ih, sitedNames, List.mem_eraseDups]
      have hsited : (writes ++ [w]).filter (·.site.isSome) =
          writes.filter (·.site.isSome) ++ [w] := by
        simp [List.filter_append, hsite]
      rw [ih, sitedNames, sitedNames, hsited, List.map_append, List.map_singleton,
        OpenScope.eraseDups_append_singleton]
      by_cases hmem : w.name ∈ (writes.filter (·.site.isSome)).map (·.name)
      · simp [hmem, Option.isSome_iff_ne_none.mp (hold.mpr hmem)]
      · have hnone : (ofWrites writes).site? w.name = none := by
          simpa using fun h => hmem (hold.mp h)
        simp [hmem, hnone]

end Table

namespace Stack

/-! ## What an operation does -/

/-- The outcome of one operation. -/
def outcome (s : Stack) (op : Op) : Outcome :=
  ⟨s.after op, (s.perform op).map (·.2)⟩

/-- Whether an operation does not fit a stack: the file is not opened again, only a frame inside
    another is closed, and the file ends when no other frame is open. -/
def Misfits (s : Stack) : Op → Prop
  | .push kind _ => kind = .topLevel
  | .pop => s.outer = []
  | .finish => s.outer ≠ []
  | .setDefault _ | .assign _ _ _ => False

/-- What an operation does to a stack: it opens a frame, closes one, writes into the innermost
    frame, shows the frame of the file, or is refused. -/
inductive Effect (s : Stack) : Op → Outcome → Prop
  | opens {kind : ScopeKind} (name : Option String) (inner : kind ≠ .topLevel) :
      Effect s (.push kind name) ⟨⟨s.current.inside kind name, s.frames⟩, .ok none⟩
  | reopens (name : Option String) :
      Effect s (.push .topLevel name) ⟨s, .error .topLevelReopened⟩
  | closes {frame : Frame} {rest : List Frame} (around : s.outer = frame :: rest) :
      Effect s .pop ⟨⟨frame, rest⟩, .ok (some s.current)⟩
  | unmatched (around : s.outer = []) : Effect s .pop ⟨s, .error .unmatchedClose⟩
  | finishes (around : s.outer = []) : Effect s .finish ⟨s, .ok (some s.current)⟩
  | unfinished {frame : Frame} {rest : List Frame} (around : s.outer = frame :: rest) :
      Effect s .finish
        ⟨s, .error (.scopesLeftOpen (rest.length + 1) s.current.kind s.current.name)⟩
  | sets (level : Level) : Effect s (.setDefault level) ⟨s.setDefault level, .ok none⟩
  | writes (name : String) (level : Level) (site : Option Site) :
      Effect s (.assign name level site) ⟨s.assign name level site, .ok none⟩

theorem effect_outcome (s : Stack) (op : Op) : s.Effect op (s.outcome op) := by
  cases op with
  | push kind name =>
    by_cases hkind : kind = .topLevel
    · subst hkind
      exact .reopens name
    · have hpush : s.outcome (.push kind name) =
          ⟨⟨s.current.inside kind name, s.frames⟩, .ok none⟩ := by
        simp [outcome, after, perform, push, hkind, frames, Except.map]
      rw [hpush]
      exact .opens name hkind
  | pop =>
    cases houter : s.outer with
    | nil =>
      have hpop : s.outcome .pop = ⟨s, .error .unmatchedClose⟩ := by
        simp [outcome, after, perform, pop, houter, Except.map]
      rw [hpop]
      exact .unmatched houter
    | cons frame rest =>
      have hpop : s.outcome .pop = ⟨⟨frame, rest⟩, .ok (some s.current)⟩ := by
        simp [outcome, after, perform, pop, houter, Except.map]
      rw [hpop]
      exact .closes houter
  | finish =>
    cases houter : s.outer with
    | nil =>
      have hfinish : s.outcome .finish = ⟨s, .ok (some s.current)⟩ := by
        simp [outcome, after, perform, finish, houter, Except.map]
      rw [hfinish]
      exact .finishes houter
    | cons frame rest =>
      have hfinish : s.outcome .finish =
          ⟨s, .error (.scopesLeftOpen (rest.length + 1) s.current.kind s.current.name)⟩ := by
        simp [outcome, after, perform, finish, houter, Except.map]
      rw [hfinish]
      exact .unfinished houter
  | setDefault level => exact .sets level
  | assign name level site => exact .writes name level site

/-- The stack after operations, refused ones included. -/
def afterAll (s : Stack) (ops : List Op) : Stack :=
  ops.foldl Stack.after s

/-- A history ends with the outcome of its last operation. -/
theorem getLast?_history (s : Stack) (ops : List Op) (op : Op) :
    (s.history (ops ++ [op])).getLast? = some ((s.afterAll ops).outcome op) := by
  induction ops generalizing s with
  | nil => rfl
  | cons first rest ih =>
    rw [List.cons_append, history, List.getLast?_cons, ih (s.after first)]
    rfl

/-! ## Operations in place -/

/-- Work on a stack in several steps, one of which may fail. The stack then stays as the steps
    before it left it. -/
abbrev Work := EStateM Fault Stack (Option Frame)

namespace Op

/-- Performs an operation step by step, and gives the frame that it closes, if it closes one. -/
def play : Op → Work
  | .push kind name => do
    if kind = .topLevel then throw .topLevelReopened
    let s ← get
    set (Stack.mk (s.current.inside kind name) s.frames)
    return none
  | .pop => do
    let s ← get
    match s.outer with
    | [] => throw .unmatchedClose
    | frame :: rest =>
      set (Stack.mk frame rest)
      return some s.current
  | .finish => do
    let s ← get
    if 1 < s.depth then
      throw (.scopesLeftOpen (s.depth - 1) s.current.kind s.current.name)
    return some s.current
  | .setDefault level => do
    set ((← get).setDefault level)
    return none
  | .assign name level site => do
    set ((← get).assign name level site)
    return none

/-- A refused operation has changed nothing when it fails. -/
theorem run_play (op : Op) (s : Stack) :
    op.play.run s =
      match s.perform op with
      | .ok (s', closed) => .ok closed s'
      | .error fault => .error fault s := by
  cases op with
  | push kind name =>
    by_cases hkind : kind = .topLevel
    · subst hkind
      rfl
    · rw [play, if_neg hkind, perform, Stack.push, if_neg hkind]
      rfl
  | pop =>
    obtain ⟨current, outer⟩ := s
    cases outer <;> rfl
  | finish =>
    obtain ⟨current, outer⟩ := s
    cases outer <;> rfl
  | setDefault level => rfl
  | assign name level site => rfl

end Op

/-- Performs operations in place, one after the other. After a refused one, the stack is used on
    as it was left. -/
def playAll (s : Stack) : List Op → List Outcome
  | [] => []
  | op :: rest =>
    match op.play.run s with
    | .ok closed s' => ⟨s', .ok closed⟩ :: s'.playAll rest
    | .error fault s' => ⟨s', .error fault⟩ :: s'.playAll rest

theorem playAll_eq_history (s : Stack) (ops : List Op) : s.playAll ops = s.history ops := by
  induction ops generalizing s with
  | nil => rfl
  | cons op rest ih =>
    rw [playAll, history, Op.run_play, after]
    cases s.perform op with
    | ok done => exact congrArg (_ :: ·) (ih done.1)
    | error fault => exact congrArg (_ :: ·) (ih s)

/-! ## The invariant -/

/-- What has been written into each open frame since it opened, innermost first, after one more
    operation. -/
def logsAfter (logs : List (List Write)) : Op → List (List Write)
  | .push kind _ => if kind = .topLevel then logs else [] :: logs
  | .pop => if logs.length = 1 then logs else logs.tail
  | .finish | .setDefault _ => logs
  | .assign name level site => logs.modifyHead (· ++ [⟨name, level, site⟩])

/-- What operations on a fresh stack have written into each frame that they leave open. -/
def logsOf (ops : List Op) : List (List Write) :=
  ops.foldl logsAfter [[]]

/-- The kinds of open frames, innermost first. -/
def kindsOf (frames : List Frame) : List ScopeKind :=
  frames.map (·.kind)

/-- The frame of the file is the outermost one, and no other. -/
def Rooted (frames : List Frame) : Prop :=
  ∃ inner, kindsOf frames = inner ++ [.topLevel] ∧ .topLevel ∉ inner

/-- The definitions of a frame are on a singleton class if the innermost frame from there outwards
    that is no sub-scope is a singleton body. -/
def Flagged (frames : List Frame) : Prop :=
  ∀ f outer, f :: outer <:+ frames →
    (f.singleton = true ↔ (kindsOf (f :: outer)).find? (· ≠ .subScope) = some .singletonBody)

/-- What holds of a stack whose frames have been written into as logged. -/
structure Kept (s : Stack) (logs : List (List Write)) : Prop where
  rooted : Rooted s.frames
  flagged : Flagged s.frames
  tables : List.Forall₂ (fun f writes => f.table = Table.ofWrites writes) s.frames logs

theorem kept_initial : initial.Kept [[]] where
  rooted := ⟨[], rfl, List.not_mem_nil⟩
  flagged f outer hsuffix := by
    obtain ⟨rfl, rfl⟩ : f = Frame.topLevel ∧ outer = [] := by
      rcases List.suffix_cons_iff.mp hsuffix with heq | hnil
      · exact List.cons_eq_cons.mp heq
      · cases List.suffix_nil.mp hnil
    decide
  tables := .cons rfl .nil

/-- A frame inside another has the flag that the kinds of the open frames give it. -/
theorem Flagged.inside {f : Frame} {outer : List Frame} (h : Flagged (f :: outer))
    (kind : ScopeKind) (name : Option String) :
    Flagged (f.inside kind name :: f :: outer) := by
  intro g rest hsuffix
  rcases List.suffix_cons_iff.mp hsuffix with heq | hinner
  · obtain ⟨rfl, rfl⟩ := List.cons_eq_cons.mp heq
    cases kind with
    | subScope =>
      simpa [kindsOf, Frame.inside, Frame.singletonInside] using h f outer List.suffix_rfl
    | _ => simp [kindsOf, Frame.inside, Frame.singletonInside]
  · exact h g rest hinner

/-- A change of the innermost frame that leaves its kind and its flag as they are. -/
theorem Flagged.change {f g : Frame} {outer : List Frame} (h : Flagged (f :: outer))
    (hkind : g.kind = f.kind) (hflag : g.singleton = f.singleton) : Flagged (g :: outer) := by
  intro e rest hsuffix
  rcases List.suffix_cons_iff.mp hsuffix with heq | houter
  · obtain ⟨rfl, rfl⟩ := List.cons_eq_cons.mp heq
    simpa [kindsOf, hkind, hflag] using h f rest List.suffix_rfl
  · exact h e rest (houter.trans (List.suffix_cons f outer))

/-- Every operation keeps the invariant, with what it writes. -/
theorem Kept.after {s : Stack} {logs : List (List Write)} (h : s.Kept logs) (op : Op) :
    (s.after op).Kept (logsAfter logs op) := by
  obtain ⟨hrooted, hflagged, htables⟩ := h
  have hlength : s.outer.length + 1 = logs.length := htables.length_eq
  have heffect := s.effect_outcome op
  show (s.outcome op).stack.Kept (logsAfter logs op)
  generalize s.outcome op = outcome at heffect ⊢
  cases heffect with
  | @opens kind name hkind =>
    obtain ⟨inner, hkinds, hinner⟩ := hrooted
    rw [logsAfter, if_neg hkind]
    refine ⟨⟨kind :: inner, congrArg (kind :: ·) hkinds, ?_⟩, hflagged.inside kind name,
      .cons rfl htables⟩
    simp [hinner, Ne.symm hkind]
  | reopens name => exact ⟨hrooted, hflagged, htables⟩
  | @closes frame rest haround =>
    -- with a frame around it, the innermost one is not that of the file
    obtain ⟨inner, hkinds, hinner⟩ := hrooted
    have hframes : s.frames = s.current :: frame :: rest := by rw [frames, haround]
    have hmore : logs.length ≠ 1 := by
      rw [← hlength, haround]
      simp
    rw [hframes] at hkinds hflagged htables
    rw [logsAfter, if_neg hmore]
    refine ⟨?_, fun f outer hsuffix => hflagged f outer (hsuffix.trans (List.suffix_cons _ _)), ?_⟩
    · cases inner with
      | nil => simp [kindsOf] at hkinds
      | cons kind inner =>
        exact ⟨inner, (List.cons_eq_cons.mp hkinds).2, fun hmem => hinner (.tail _ hmem)⟩
    · cases htables with
      | cons _ houter => exact houter
  | unmatched haround =>
    rw [logsAfter, if_pos (by rw [← hlength, haround]; rfl)]
    exact ⟨hrooted, hflagged, htables⟩
  | finishes => exact ⟨hrooted, hflagged, htables⟩
  | unfinished => exact ⟨hrooted, hflagged, htables⟩
  | sets level =>
    refine ⟨hrooted, hflagged.change rfl rfl, ?_⟩
    cases htables with
    | cons hcurrent houter => exact .cons hcurrent houter
  | writes name level site =>
    refine ⟨hrooted, hflagged.change rfl rfl, ?_⟩
    cases htables with
    | cons hcurrent houter =>
      refine .cons ?_ houter
      rw [Table.ofWrites_concat, ← hcurrent]
      rfl

theorem kept_afterAll (ops : List Op) : (initial.afterAll ops).Kept (logsOf ops) := by
  induction ops using List.reverseRecOn with
  | nil => exact kept_initial
  | append_singleton ops op ih =>
    rw [afterAll, logsOf, List.foldl_append, List.foldl_append]
    exact ih.after op

theorem Kept.nodup_current {s : Stack} {logs : List (List Write)} (h : s.Kept logs) :
    s.current.table.names.Nodup := by
  cases h.tables with
  | cons hcurrent _ =>
    rw [hcurrent]
    exact Table.nodup_names_ofWrites _

/-! ## Frames that stay open -/

/-- The open frame with so many frames around it; the frame of the file has none. -/
def at? (s : Stack) (height : Nat) : Option Frame :=
  s.frames.reverse[height]?

end Stack

/-- A frame at a later time: it is the same scope, a site that a name had it still has, and names
    that got one since stand behind those that had one. -/
structure Frame.Ages (f g : Frame) : Prop where
  kind : g.kind = f.kind
  name : g.name = f.name
  owner : g.owner = f.owner
  singleton : g.singleton = f.singleton
  site? : ∀ id site, f.table.site? id = some site → g.table.site? id = some site
  defined : f.table.definedNames <+: g.table.definedNames

namespace Frame.Ages

theorem refl (f : Frame) : f.Ages f :=
  ⟨rfl, rfl, rfl, rfl, fun _ _ h => h, List.prefix_rfl⟩

theorem trans {f g h : Frame} (hfg : f.Ages g) (hgh : g.Ages h) : f.Ages h where
  kind := hgh.kind.trans hfg.kind
  name := hgh.name.trans hfg.name
  owner := hgh.owner.trans hfg.owner
  singleton := hgh.singleton.trans hfg.singleton
  site? id site hsite := hgh.site? id site (hfg.site? id site hsite)
  defined := hfg.defined.trans hgh.defined

theorem assign {f : Frame} (h : f.table.names.Nodup) (name : String) (level : Level)
    (site : Option Site) : f.Ages (f.assign name level site) where
  kind := rfl
  name := rfl
  owner := rfl
  singleton := rfl
  site? id first hfirst := by
    show (f.table.assign name level site).site? id = some first
    rw [Table.site?_assign]
    by_cases hid : id = name
    · rw [if_pos hid, hfirst, Option.some_or]
    · rw [if_neg hid, hfirst]
  defined := by
    show _ <+: (f.table.assign name level site).definedNames
    rw [Table.definedNames_assign h]
    exact List.prefix_append _ _

end Frame.Ages

namespace Stack

/-- A frame that an operation does not close is there after it, only older. -/
theorem ages_after {s : Stack} {logs : List (List Write)} (h : s.Kept logs) (op : Op)
    {height : Nat} {f : Frame} (hf : s.at? height = some f) (hopen : height < (s.after op).depth) :
    ∃ g, (s.after op).at? height = some g ∧ f.Ages g := by
  have hbound : height < s.frames.reverse.length := (List.getElem?_eq_some_iff.mp hf).1
  have hsame : s.at? height = some f → ∃ g, s.at? height = some g ∧ f.Ages g :=
    fun hf => ⟨f, hf, .refl f⟩
  -- a change of the innermost frame leaves those below it as they are
  have hchange : ∀ change : Frame → Frame, s.current.Ages (change s.current) →
      ∃ g, (s.modify change).at? height = some g ∧ f.Ages g := by
    intro change hages
    have hframes : (s.modify change).frames.reverse = s.outer.reverse ++ [change s.current] := by
      simp [modify, frames]
    rw [at?, frames, List.reverse_cons] at hf
    rw [at?, hframes]
    by_cases hlast : height < s.outer.reverse.length
    · rw [List.getElem?_append_left hlast] at hf ⊢
      exact ⟨f, hf, .refl f⟩
    · obtain rfl : height = s.outer.reverse.length := by
        simp [frames] at hbound hlast ⊢
        omega
      simp only [List.getElem?_concat_length] at hf ⊢
      obtain rfl := Option.some.inj hf
      exact ⟨_, rfl, hages⟩
  have heffect := s.effect_outcome op
  change height < (s.outcome op).stack.depth at hopen
  show ∃ g, (s.outcome op).stack.at? height = some g ∧ f.Ages g
  generalize s.outcome op = outcome at heffect hopen ⊢
  cases heffect with
  | opens name _ =>
    refine ⟨f, ?_, .refl f⟩
    rw [at?, frames, List.reverse_cons, List.getElem?_append_left hbound]
    exact hf
  | @closes frame rest haround =>
    refine ⟨f, ?_, .refl f⟩
    have hrest : height < (frame :: rest).reverse.length := by
      simpa [depth] using hopen
    rw [at?, frames, List.reverse_cons, haround, List.getElem?_append_left hrest] at hf
    exact hf
  | reopens => exact hsame hf
  | unmatched => exact hsame hf
  | finishes => exact hsame hf
  | unfinished => exact hsame hf
  | sets level => exact hchange _ ⟨rfl, rfl, rfl, rfl, fun _ _ h => h, List.prefix_rfl⟩
  | writes name level site => exact hchange _ (.assign h.nodup_current _ _ _)

/-- A frame that stays open through operations is there after them, only older. -/
theorem ages_afterAll (ops more : List Op) {height : Nat} {f : Frame}
    (hf : (initial.afterAll ops).at? height = some f)
    (hopen : ∀ first, first <+: more → height < (initial.afterAll (ops ++ first)).depth) :
    ∃ g, (initial.afterAll (ops ++ more)).at? height = some g ∧ f.Ages g := by
  induction more using List.reverseRecOn with
  | nil => exact ⟨f, by rwa [List.append_nil], .refl f⟩
  | append_singleton more op ih =>
    obtain ⟨g, hg, hfg⟩ := ih fun first hfirst =>
      hopen first (hfirst.trans (List.prefix_append _ _))
    have hlast := hopen _ List.prefix_rfl
    rw [← List.append_assoc, afterAll, List.foldl_append] at hlast ⊢
    obtain ⟨h, hh, hgh⟩ := ages_after (kept_afterAll (ops ++ more)) op hg hlast
    exact ⟨h, hh, hfg.trans hgh⟩

end Stack

/-- After every list of operations on a fresh stack, refused ones included: the frame of the file is
    the outermost one and no other; the flag of each frame is that of the innermost frame from there
    outwards that is no sub-scope; in its table no name stands twice, each name has the first site
    that was written for it, and those that have one stand in the order in which they first got it.
    A frame that stays open through more operations keeps the sites that it has. Performed in place
    and step by step, the operations have the same outcomes. And of a further operation in place: it
    is refused if it does not fit, and only then; if it is refused, or is a finish, the stack stays
    as it is; a pop that is not closes the innermost frame, a push puts one in front, and both leave
    all other frames as they are; anything else changes at most the innermost frame. -/
theorem frames_of_history (ops : List Stack.Op) :
    let s := Stack.initial.afterAll ops
    Stack.Rooted s.frames ∧ Stack.Flagged s.frames ∧
    List.Forall₂ (fun f writes => f.table.names.Nodup ∧
        (∀ name, f.table.site? name = firstSite? writes name) ∧
        f.table.definedNames = sitedNames writes)
      s.frames (Stack.logsOf ops) ∧
    (∀ more height f, s.at? height = some f →
      (∀ first, first <+: more → height < (Stack.initial.afterAll (ops ++ first)).depth) →
      ∃ g, (Stack.initial.afterAll (ops ++ more)).at? height = some g ∧ f.Ages g) ∧
    Stack.initial.playAll ops = Stack.initial.history ops ∧
    ∀ op outcome, (Stack.initial.playAll (ops ++ [op])).getLast? = some outcome →
      ((∃ fault, outcome.closed = .error fault) ↔ s.Misfits op) ∧
      ((∃ fault, outcome.closed = .error fault) ∨ op = .finish → outcome.stack = s) ∧
      ∀ closed, outcome.closed = .ok closed →
        match op with
        | .push kind name => outcome.stack.frames = s.current.inside kind name :: s.frames
        | .pop => s.frames = s.current :: outcome.stack.frames ∧ closed = some s.current
        | .finish | .setDefault _ | .assign _ _ _ => outcome.stack.outer = s.outer := by
  intro s
  have hkept := Stack.kept_afterAll ops
  refine ⟨hkept.rooted, hkept.flagged, hkept.tables.imp ?_, ?_, Stack.playAll_eq_history _ _, ?_⟩
  · intro f writes htable
    rw [htable]
    exact ⟨Table.nodup_names_ofWrites writes, Table.site?_ofWrites writes,
      Table.definedNames_ofWrites writes⟩
  · intro more height f hf hopen
    exact Stack.ages_afterAll ops more hf hopen
  · intro op outcome houtcome
    rw [Stack.playAll_eq_history, Stack.getLast?_history] at houtcome
    obtain rfl := Option.some.inj houtcome
    have heffect := s.effect_outcome op
    show (_ ↔ s.Misfits op) ∧ (_ ∨ _ → (s.outcome op).stack = s) ∧ _
    generalize s.outcome op = outcome at heffect ⊢
    cases heffect with
    | opens name hkind =>
      exact ⟨iff_of_false nofun hkind, by simp, fun _ _ => rfl⟩
    | closes haround =>
      refine ⟨iff_of_false nofun (by simp [Stack.Misfits, haround]), by simp, ?_⟩
      intro closed hclosed
      cases hclosed
      exact ⟨congrArg (s.current :: ·) haround, rfl⟩
    | sets | writes => exact ⟨iff_of_false nofun nofun, by simp, fun _ _ => rfl⟩
    | finishes haround =>
      exact ⟨iff_of_false nofun (· haround), fun _ => rfl, fun _ _ => rfl⟩
    | reopens => exact ⟨iff_of_true ⟨_, rfl⟩ rfl, fun _ => rfl, nofun⟩
    | unmatched haround => exact ⟨iff_of_true ⟨_, rfl⟩ haround, fun _ => rfl, nofun⟩
    | unfinished haround =>
      exact ⟨iff_of_true ⟨_, rfl⟩ (by simp [Stack.Misfits, haround]), fun _ => rfl, nofun⟩

end MethodVisibility
