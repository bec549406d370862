/-
  The first fault of a stream.

  `failureAt?` says what is wrong with a stream at a position, by the items up to it alone: the
  scope of the file is opened again, a scope is closed although the items before leave none
  open (`scopesOpen`), or there is no event.

  A step that fails returns no state, so what it leaves behind is not seen there. `Change.take`
  takes an item in place and step by step, and `Run.readAll` a stream; a failure keeps the run
  as it then is, and the items that were not read. They come to what `Run.apply` and
  `Run.applyAll` come to (`Change.run_take`, `Run.applyAll_eq_readAll`), and whatever fails
  does so before anything is changed.

  `resolve_fails_at_first_fault`: the first fault decides how a resolution fails.
-/
import MethodVisibility.Proofs.Segments

namespace MethodVisibility

/-! ## Faults by position -/

namespace Item

/-- Whether an item opens a scope. -/
def opens : Item → Bool
  | .event (.openScope _ _ _) => true
  | _ => false

/-- Whether an item closes a scope. -/
def closes : Item → Bool
  | .event (.closeScope _) => true
  | _ => false

/-- Whether an item has a site, if it is a definition. -/
def isSited : Item → Bool
  | .event e => e.isSited
  | .alien => true

/-- What is wrong with an item at a position before which `depth` scopes are open. -/
def failure? (position depth : Nat) : Item → Option Failure
  | .event (.openScope kind _ site) =>
    if kind = .topLevel then some (.malformed .topLevelReopened (some position) site) else none
  | .event (.closeScope site) =>
    if depth = 0 then some (.malformed .unmatchedClose (some position) site) else none
  | .event _ => none
  | .alien => some .notAnEvent

end Item

/-- How many scopes items leave open. -/
def scopesOpen (items : List Item) : Nat :=
  items.countP Item.opens - items.countP Item.closes

/-- What is wrong with a stream at a position, by the items up to it. -/
def failureAt? (items : List Item) (position : Nat) : Option Failure :=
  (items[position]?).bind (Item.failure? position (scopesOpen (items.take position)))

/-! ## Changes in place -/

/-- A change of a run in several steps, one of which may fail. The run then stays as the steps
    before it left it. -/
abbrev Change := EStateM Failure Run Unit

namespace Change

/-- Appends the records of a closing frame, row by row. -/
def emit (frame : Frame) : List (String × Entry) → Change
  | [] => pure ()
  | row :: rest => do
    match frame.record? row with
    | some record => modify fun r => { r with records := r.records ++ [record] }
    | none => pure ()
    emit frame rest

/-- Writes a level for names, one by one. -/
def mention (level : Level) : List String → Change
  | [] => pure ()
  | name :: rest => do
    modify fun r => { r with stack := r.stack.assign name level none }
    mention level rest

/-- Takes one item, step by step. -/
def take (position : Nat) : Item → Change
  | .event (.openScope kind name site) => do
    let r ← get
    match r.stack.push kind name with
    | .error fault => throw (Run.faultAt position (.openScope kind name site) fault)
    | .ok stack => set { r with stack }
  | .event (.closeScope site) => do
    let r ← get
    match r.stack.pop with
    | .error fault => throw (Run.faultAt position (.closeScope site) fault)
    | .ok (frame, stack) =>
      set { r with stack }
      emit frame frame.table.entries
  | .event (.bare level _) =>
    modify fun r => { r with stack := r.stack.setDefault level }
  | .event (.targeted level targets _) => mention level targets
  | .event (.method identifier site) =>
    modify fun r => r.define identifier site
  | .event (.singletonMethod identifier site) => do
    let r ← get
    if r.exempt then
      match site with
      | none => throw .siteMissing
      | some site =>
        let record := MethodRecord.ofSingleton identifier site r.stack.current.owner
        set { r with records := r.records ++ [record] }
    else set (r.define identifier site)
  | .alien => throw .notAnEvent

theorem run_emit (frame : Frame) (rows : List (String × Entry)) (r : Run) :
    (emit frame rows).run r =
      .ok () { r with records := r.records ++ rows.filterMap frame.record? } := by
  induction rows generalizing r with
  | nil =>
    rw [List.filterMap_nil, List.append_nil]
    rfl
  | cons row rest ih =>
    rw [emit, List.filterMap_cons]
    cases frame.record? row with
    | none => exact ih r
    | some record =>
      refine (ih { r with records := r.records ++ [record] }).trans ?_
      simp

theorem run_mention (level : Level) (names : List String) (r : Run) :
    (mention level names).run r = .ok () { r with stack := r.stack.assignAll names level } := by
  induction names generalizing r with
  | nil => rfl
  | cons name rest ih => exact ih { r with stack := r.stack.assign name level none }

theorem run_get_bind (next : Run → Change) (r : Run) :
    (get >>= next : Change).run r = (next r).run r := rfl

/-- Whatever fails in taking an item fails before anything is changed. -/
theorem run_take (position : Nat) (item : Item) (r : Run) :
    (take position item).run r =
      match r.apply position item with
      | .ok r' => .ok () r'
      | .error failure => .error failure r := by
  cases item with
  | alien => rfl
  | event e =>
    cases e with
    | openScope kind name site =>
      simp only [Run.apply, Run.step]
      rw [take, run_get_bind]
      cases r.stack.push kind name with
      | error fault => rfl
      | ok stack => rfl
    | closeScope site =>
      simp only [Run.apply, Run.step]
      rw [take, run_get_bind]
      cases r.stack.pop with
      | error fault => rfl
      | ok popped => exact run_emit popped.1 popped.1.table.entries { r with stack := popped.2 }
    | bare level site => rfl
    | targeted level targets site => exact run_mention level targets r
    | method identifier site => rfl
    | singletonMethod identifier site =>
      simp only [Run.apply, Run.step]
      rw [take, run_get_bind]
      cases r.exempt with
      | false => rfl
      | true => cases site <;> rfl

end Change

/-- Where a run over a stream stops: the run as it is left, the items that have not been read,
    and what it failed with, if it did. -/
structure Stop where
  run : Run
  unread : List Item
  failure : Option Failure

namespace Run

/-- Reads items one by one, changing a run in place, up to the first failure. -/
def readAll (r : Run) (position : Nat) : List Item → Stop
  | [] => ⟨r, [], none⟩
  | item :: rest =>
    match (Change.take position item).run r with
    | .ok () r' => r'.readAll (position + 1) rest
    | .error failure r' => ⟨r', rest, some failure⟩

theorem applyAll_eq_readAll (r : Run) (position : Nat) (items : List Item) :
    r.applyAll position items =
      match (r.readAll position items).failure with
      | none => .ok (r.readAll position items).run
      | some failure => .error failure := by
  induction items generalizing r position with
  | nil => rfl
  | cons item rest ih =>
    rw [applyAll, readAll, Change.run_take]
    cases r.apply position item with
    | error failure => rfl
    | ok r' => exact ih r' (position + 1)

/-- Items that lead to a run are read, and the run goes on from there. -/
theorem readAll_of_leads {r r' : Run} {before : List Item} (h : r.Leads before r')
    (position : Nat) (rest : List Item) :
    r.readAll position (before ++ rest) = r'.readAll (position + before.length) rest := by
  induction before generalizing r position with
  | nil => rw [Leads.unique h (Leads.nil r)]; rfl
  | cons item before ih =>
    obtain ⟨s, hs, hrest⟩ := Leads.cons_iff.mp h
    rw [List.cons_append, readAll, Change.run_take, apply_position hs position]
    have hlength : position + (item :: before).length = position + 1 + before.length := by
      simp only [List.length_cons]
      omega
    rw [hlength]
    exact ih hrest (position + 1)

/-! ## One item -/

/-- An item with nothing wrong is taken. -/
theorem exists_apply_of_failure?_none (r : Run) {item : Item} {position : Nat}
    (h : item.failure? position r.stack.outer.length = none) (hsited : item.isSited = true) :
    ∃ r', r.apply 0 item = .ok r' := by
  cases item with
  | alien => simp [Item.failure?] at h
  | event e =>
    have hdepth : ∃ depth, depthAfter r.stack.outer.length [e] = some depth := by
      cases e with
      | openScope kind name site =>
        have hkind : kind ≠ .topLevel := by simpa [Item.failure?] using h
        simp [depthAfter, hkind]
      | closeScope site =>
        cases houter : r.stack.outer with
        | nil => simp [Item.failure?, houter] at h
        | cons frame outer => simp [depthAfter]
      | _ => simp [depthAfter]
    obtain ⟨depth, hdepth⟩ := hdepth
    obtain ⟨added, t, hturns, _⟩ := r.stack.exists_turns_event hdepth hsited
    have hleads := hturns [] r.records
    rw [Stack.upon_nil] at hleads
    obtain ⟨r', hr', _⟩ := Leads.cons_iff.mp hleads
    exact ⟨r', hr'⟩

/-- An item with something wrong fails with just that. -/
theorem apply_of_failure? (r : Run) {item : Item} {position : Nat} {failure : Failure}
    (h : item.failure? position r.stack.outer.length = some failure) :
    r.apply position item = .error failure := by
  cases item with
  | alien => exact congrArg Except.error (Option.some.inj h)
  | event e =>
    cases e with
    | openScope kind name site =>
      obtain ⟨rfl, rfl⟩ : kind = .topLevel ∧
          Failure.malformed .topLevelReopened (some position) site = failure := by
        simpa [Item.failure?] using h
      rfl
    | closeScope site =>
      obtain ⟨houter, rfl⟩ : r.stack.outer = [] ∧
          Failure.malformed .unmatchedClose (some position) site = failure := by
        simpa [Item.failure?] using h
      simp [apply, step, Stack.pop, houter, faultAt, Event.site]
    | _ => simp [Item.failure?] at h

theorem outer_length_step {r r' : Run} {p : Nat} {e : Event} (h : r.step p e = .ok r') :
    r'.stack.outer.length + (if (Item.event e).closes then 1 else 0) =
      r.stack.outer.length + (if (Item.event e).opens then 1 else 0) := by
  have hdepth := depthAfter_cons_of_step h []
  cases e with
  | openScope kind name site =>
    have hkind : kind ≠ .topLevel := by
      rintro rfl
      simp [depthAfter] at hdepth
    have hmore : r.stack.outer.length + 1 = r'.stack.outer.length := by
      simpa [depthAfter, hkind] using hdepth
    simp [Item.closes, Item.opens, hmore]
  | closeScope site =>
    cases houter : r.stack.outer with
    | nil => simp [depthAfter, houter] at hdepth
    | cons frame outer =>
      have hless : outer.length = r'.stack.outer.length := by
        simpa [depthAfter, houter] using hdepth
      simp [Item.closes, Item.opens, hless]
  | _ =>
    have hsame : r.stack.outer.length = r'.stack.outer.length := by
      simpa [depthAfter] using hdepth
    simp [Item.closes, Item.opens, hsame]

/-- Every scope that items open and do not close is an open frame. -/
theorem Leads.outer_length {r r' : Run} {items : List Item} (h : r.Leads items r') :
    r'.stack.outer.length + items.countP Item.closes =
      r.stack.outer.length + items.countP Item.opens := by
  induction items generalizing r with
  | nil => rw [unique h (nil r)]; rfl
  | cons item rest ih =>
    obtain ⟨s, hs, hrest⟩ := cons_iff.mp h
    cases item with
    | alien => cases hs
    | event e =>
      have hfirst := outer_length_step hs
      have hlast := ih hrest
      rw [List.countP_cons, List.countP_cons]
      omega

theorem outer_length_of_leads {items : List Item} {r : Run} (h : initial.Leads items r) :
    r.stack.outer.length = scopesOpen items := by
  have hlength := h.outer_length
  have hstart : initial.stack.outer.length = 0 := rfl
  rw [scopesOpen]
  omega

/-- A stream with nothing wrong before a position is taken up to there. -/
theorem exists_leads_take {items : List Item} (hsited : ∀ item ∈ items, item.isSited = true)
    {k : Nat} (hk : k ≤ items.length) (hnone : ∀ j < k, failureAt? items j = none) :
    ∃ r, initial.Leads (items.take k) r := by
  induction k with
  | zero => exact ⟨initial, Leads.nil _⟩
  | succ k ih =>
    obtain ⟨r, hr⟩ := ih (by omega) fun j hj => hnone j (by omega)
    have hitem : items[k]? = some items[k] := List.getElem?_eq_getElem (by omega)
    have hfine := hnone k (by omega)
    rw [failureAt?, hitem, Option.bind_some, ← outer_length_of_leads hr] at hfine
    obtain ⟨r', hr'⟩ := r.exists_apply_of_failure?_none hfine (hsited _ (List.getElem_mem _))
    refine ⟨r', ?_⟩
    rw [List.take_add_one, hitem]
    exact hr.append (Leads.single hr')

/-- A run stops at the first item with something wrong, as it was before that item. -/
theorem readAll_at_failure {before : List Item} {r : Run} (h : initial.Leads before r)
    {item : Item} {failure : Failure}
    (hwrong : item.failure? before.length (scopesOpen before) = some failure)
    (rest : List Item) :
    initial.readAll 0 (before ++ item :: rest) = ⟨r, rest, some failure⟩ := by
  rw [← outer_length_of_leads h] at hwrong
  rw [readAll_of_leads h, Nat.zero_add, readAll, Change.run_take, r.apply_of_failure? hwrong]

end Run

/-- Let `k` be the first position of a sited stream at which something is wrong: the scope of
    the file is opened again, a scope is closed while none is open, or there is no event. A
    resolution fails there, whatever follows, with the fault of that item, its position and its
    site; it has read nothing after it, and frames and records are as they were before it. If
    nothing is wrong anywhere, a stream that leaves scopes open fails at its end, without a
    site, and any other is resolved. -/
theorem resolve_fails_at_first_fault (items : List Item)
    (hsited : ∀ item ∈ items, item.isSited = true) :
    (∀ k failure, failureAt? items k = some failure → (∀ j < k, failureAt? items j = none) →
      (∀ rest, Run.resolve (items.take (k + 1) ++ rest) = .error failure) ∧
      ∃ r, Run.initial.Leads (items.take k) r ∧
        Run.initial.readAll 0 items = ⟨r, items.drop (k + 1), some failure⟩) ∧
    ((∀ k, failureAt? items k = none) →
      (0 < scopesOpen items → ∃ kind name, Run.resolve items =
        .error (.malformed (.scopesLeftOpen (scopesOpen items) kind name)
          (some items.length) none)) ∧
      (scopesOpen items = 0 → ∃ records, Run.resolve items = .ok records)) := by
  refine ⟨?_, ?_⟩
  · intro k failure hfailure hleast
    obtain ⟨item, hitem, hwrong⟩ := Option.bind_eq_some_iff.mp hfailure
    obtain ⟨hk, rfl⟩ := List.getElem?_eq_some_iff.mp hitem
    obtain ⟨r, hr⟩ := Run.exists_leads_take hsited (Nat.le_of_lt hk) hleast
    have hlength : (items.take k).length = k := by
      rw [List.length_take]
      omega
    have hhere : items[k].failure? (items.take k).length (scopesOpen (items.take k)) =
        some failure := by
      rwa [hlength]
    have hstop := Run.readAll_at_failure hr hhere
    refine ⟨?_, r, hr, ?_⟩
    · intro rest
      rw [List.take_add_one, hitem, Option.toList_some, List.append_assoc,
        List.singleton_append, Run.resolve, Run.applyAll_eq_readAll, hstop]
    · rw [← hstop, List.getElem_cons_drop, List.take_append_drop]
  · intro hnone
    obtain ⟨r, hr⟩ := Run.exists_leads_take hsited (Nat.le_refl _) fun j _ => hnone j
    rw [List.take_length] at hr
    have hlength := Run.outer_length_of_leads hr
    refine ⟨?_, ?_⟩
    · intro hopen
      refine ⟨r.stack.current.kind, r.stack.current.name, ?_⟩
      cases houter : r.stack.outer with
      | nil =>
        rw [houter, List.length_nil] at hlength
        omega
      | cons frame outer =>
        simp [Run.resolve, hr 0, Run.finish, Stack.finish, houter, ← hlength]
    · intro hclosed
      rw [hclosed] at hlength
      exact ⟨_, Run.resolve_of_leads hr (List.length_eq_zero_iff.mp hlength)⟩

/-- A close too many, with more that is wrong behind it. -/
def strayClose : List Item :=
  [.event (.openScope .typeBody (some "A") none), .event (.method "a" (some ⟨2, none, 2⟩)),
    .event (.closeScope none), .event (.closeScope (some ⟨4, none, 0⟩)), .alien,
    .event (.openScope .topLevel none none)]

/-- `strayClose` fails at the close, with the record of the scope before it. -/
theorem resolve_fails_strayClose :
    (∀ item ∈ strayClose, item.isSited = true) ∧
      Run.resolve strayClose =
        .error (.malformed .unmatchedClose (some 3) (some ⟨4, none, 0⟩)) ∧
      ∃ r, Run.initial.Leads (strayClose.take 3) r ∧
        Run.initial.readAll 0 strayClose = ⟨r, strayClose.drop 4,
          some (.malformed .unmatchedClose (some 3) (some ⟨4, none, 0⟩))⟩ := by
  have hsited : ∀ item ∈ strayClose, item.isSited = true := by decide
  obtain ⟨hresolve, hstop⟩ := (resolve_fails_at_first_fault strayClose hsited).1 3 _
    (by decide : failureAt? strayClose 3 =
      some (.malformed .unmatchedClose (some 3) (some ⟨4, none, 0⟩))) (by decide)
  exact ⟨hsited, hresolve (strayClose.drop 4), hstop⟩

end MethodVisibility
