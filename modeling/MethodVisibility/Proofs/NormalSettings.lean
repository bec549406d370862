/-
  Settings that are read are in normal form.

  `Settings.Normal` says what this is: the names are stripped, those of scope calls have no point,
  those of constructor calls have a last one with something before and after it, and the limit is
  positive. What is read is normal (`Settings.normal_of_ofValue`), and what is normal is read back
  as it is written (`Settings.ofValue_toValue`); for stripping a text twice is stripping it once
  (`Text.strip_strip`).

  Where all that is given has its declared type, `Settings.Given` is what is given. Each field is
  then read on its own, with no issue or one (`Settings.NameIssues`, `Settings.LimitIssues`), and
  `Checked.settle` is how a value and the issues on the way to it are put together: two of them are
  settled as one with the issues of both (`Checked.both_settle`).

  `settings_normal`: every value that is read, and every object of declared types.
-/
import Mathlib.Data.List.DropRight
import MethodVisibility.Proofs.Results
import MethodVisibility.Settings

namespace MethodVisibility

/-! ## Stripping -/

namespace Text

theorem of_dropWhile_eq_cons {cls : Char → Bool} {cs rest : List Char} {c : Char}
    (h : cs.dropWhile cls = c :: rest) : cls c = false := by
  have hhead := List.head_dropWhile_not cls (by rw [h]; exact List.cons_ne_nil c rest)
  simpa [h] using hhead

/-- What has been stripped has no more to strip. -/
theorem trimBoth_trimBoth (cls : Char → Bool) (cs : List Char) :
    trimBoth cls (trimBoth cls cs) = trimBoth cls cs := by
  have htrim : ∀ l, trimBoth cls l = (l.dropWhile cls).rdropWhile cls := fun _ => rfl
  -- the front is left as it is, for it begins as what was left after the first strip there
  have hfront : ((cs.dropWhile cls).rdropWhile cls).dropWhile cls =
      (cs.dropWhile cls).rdropWhile cls := by
    obtain ⟨rest, hrest⟩ := List.rdropWhile_prefix cls (cs.dropWhile cls)
    cases hleft : (cs.dropWhile cls).rdropWhile cls with
    | nil => rfl
    | cons c left =>
      rw [hleft, List.cons_append] at hrest
      rw [List.dropWhile_cons_of_neg (by simp [of_dropWhile_eq_cons hrest.symm])]
  rw [htrim (trimBoth cls cs), htrim cs, hfront, List.rdropWhile_idempotent]

theorem strip_strip (s : String) : strip (strip s) = strip s := by
  rw [strip, strip, String.toList_ofList, trimBoth_trimBoth]

/-! ## The last point -/

theorem ne_point_of_mem_reverse {cs : List Char} (h : '.' ∉ cs) :
    ∀ c ∈ cs.reverse, decide (c ≠ '.') = true := by
  intro c hc
  have hne : c ≠ '.' := fun heq => h (heq ▸ List.mem_reverse.mp hc)
  simpa using hne

/-- From the end backwards, what stands behind the last point. -/
theorem takeWhile_lastPoint (before : List Char) {behind : List Char} (h : '.' ∉ behind) :
    (before ++ '.' :: behind).reverse.takeWhile (· ≠ '.') = behind.reverse := by
  rw [List.reverse_append, List.reverse_cons, List.append_assoc,
    List.takeWhile_append_of_pos (ne_point_of_mem_reverse h)]
  simp

/-- From the end backwards, the last point and what stands before it. -/
theorem dropWhile_lastPoint (before : List Char) {behind : List Char} (h : '.' ∉ behind) :
    (before ++ '.' :: behind).reverse.dropWhile (· ≠ '.') = '.' :: before.reverse := by
  rw [List.reverse_append, List.reverse_cons, List.append_assoc,
    List.dropWhile_append_of_pos (ne_point_of_mem_reverse h)]
  simp

/-- Characters with a point are parted at the last one. -/
theorem exists_lastPoint {cs rest : List Char} {d : Char}
    (h : cs.reverse.dropWhile (· ≠ '.') = d :: rest) :
    ∃ behind, '.' ∉ behind ∧ cs = rest.reverse ++ '.' :: behind ∧
      cs.reverse.takeWhile (· ≠ '.') = behind.reverse := by
  have hpoint : d = '.' := by simpa using of_dropWhile_eq_cons h
  have hwhole : cs.reverse = cs.reverse.takeWhile (· ≠ '.') ++ d :: rest := by
    rw [← h, List.takeWhile_append_dropWhile]
  refine ⟨(cs.reverse.takeWhile (· ≠ '.')).reverse, ?_, ?_, List.reverse_reverse _ |>.symm⟩
  · intro hmem
    simpa using List.mem_takeWhile_imp (List.mem_reverse.mp hmem)
  · have hcs := congrArg List.reverse hwhole
    rw [List.reverse_reverse, List.reverse_append, List.reverse_cons, hpoint,
      List.append_assoc] at hcs
    exact hcs

end Text

/-! ## Values and issues -/

namespace Checked

variable {α β : Type}

/-- A value if there are no issues on the way to it. -/
def settle (issues : List Issue) (a : α) : Checked α :=
  if issues = [] then .ok a else .error issues

theorem both_settle (issues more : List Issue) (a : α) (b : β) :
    (settle issues a).both (settle more b) = settle (issues ++ more) (a, b) := by
  cases issues <;> cases more <;> simp [settle, both]

theorem map_settle (issues : List Issue) (a : α) (f : α → β) :
    (settle issues a).map f = settle issues (f a) := by
  cases issues <;> rfl

theorem settle_eq_error_iff {issues found : List Issue} {a : α} :
    settle issues a = .error found ↔ issues = found ∧ issues ≠ [] := by
  cases issues <;> simp [settle]

theorem both_eq_ok_iff {c : Checked α} {d : Checked β} {a : α} {b : β} :
    c.both d = .ok (a, b) ↔ c = .ok a ∧ d = .ok b := by
  cases c <;> cases d <;> simp [both]

theorem under_eq_ok_iff {part : Part} {c : Checked α} {a : α} :
    c.under part = .ok a ↔ c = .ok a := by
  cases c <;> simp [under, Except.mapError]

end Checked

namespace Value

/-- A field that is read is there and is read, or is not there. -/
theorem optional_eq_ok {α : Type} {fields : List (String × Value)} {name : String} {absent a : α}
    {read : Value → Checked α} (h : optional fields name absent read = .ok a) :
    a = absent ∨ ∃ v, read v = .ok a := by
  unfold optional at h
  split at h
  · next v _ => exact .inr ⟨v, Checked.under_eq_ok_iff.mp h⟩
  · exact .inl (Except.ok.inj h).symm

/-- A list of texts is read as it is. -/
theorem readList_texts (names : List String) :
    (Value.list (names.map .text)).readList readText = .ok names := by
  have hitems : ∀ place, Checked.all (readItems readText place (names.map .text)) = .ok names := by
    induction names with
    | nil => exact fun _ => rfl
    | cons name rest ih =>
      intro place
      rw [List.map_cons, readItems, Checked.all, ih]
      rfl
  exact hitems 0

end Value

namespace Settings

/-! ## Names -/

/-- The name of a call without a receiver. -/
structure ScopeName (name : String) : Prop where
  stripped : Text.strip name = name
  nonempty : name ≠ ""
  plain : '.' ∉ name.toList

/-- The name of a call with a receiver: there is something before and after its last point. -/
structure ConstructorName (name : String) : Prop where
  stripped : Text.strip name = name
  parts : ∃ receiver method : String, receiver ≠ "" ∧ method ≠ "" ∧ '.' ∉ method.toList ∧
    name = receiver ++ "." ++ method

theorem isScopeCall_iff (name : String) :
    isScopeCall name = true ↔ name ≠ "" ∧ '.' ∉ name.toList := by
  simp [isScopeCall]

/-- A text with a point and what stands before and after the last one. -/
theorem isConstructorCall_iff (name : String) :
    isConstructorCall name = true ↔ ∃ receiver method : String, receiver ≠ "" ∧ method ≠ "" ∧
      '.' ∉ method.toList ∧ name = receiver ++ "." ++ method := by
  constructor
  · intro h
    unfold isConstructorCall at h
    split at h
    · next m ms d x xs hbehind hfrom =>
      obtain ⟨method, hplain, hwhole, hmethod⟩ := Text.exists_lastPoint hfrom
      rw [hbehind] at hmethod
      refine ⟨.ofList (x :: xs).reverse, .ofList method, by simp, ?_, by simpa using hplain, ?_⟩
      · rintro hnone
        rw [← String.toList_inj, String.toList_ofList] at hnone
        rw [hnone] at hmethod
        cases hmethod
      · rw [← String.toList_inj, hwhole]
        simp
    · cases h
  · rintro ⟨receiver, method, hreceiver, hmethod, hplain, rfl⟩
    have hwhole : (receiver ++ "." ++ method).toList =
        receiver.toList ++ '.' :: method.toList := by
      simp
    unfold isConstructorCall
    rw [hwhole, Text.takeWhile_lastPoint _ hplain, Text.dropWhile_lastPoint _ hplain]
    cases hm : method.toList.reverse with
    | nil => exact absurd (by simpa using hm) hmethod
    | cons m ms =>
      cases hr : receiver.toList.reverse with
      | nil => exact absurd (by simpa using hr) hreceiver
      | cons x xs => rfl

theorem isScopeCall_strip_iff (name : String) :
    isScopeCall (Text.strip name) = true ↔ ScopeName (Text.strip name) := by
  rw [isScopeCall_iff]
  exact ⟨fun h => ⟨Text.strip_strip name, h.1, h.2⟩, fun h => ⟨h.nonempty, h.plain⟩⟩

theorem isConstructorCall_strip_iff (name : String) :
    isConstructorCall (Text.strip name) = true ↔ ConstructorName (Text.strip name) := by
  rw [isConstructorCall_iff]
  exact ⟨fun h => ⟨Text.strip_strip name, h⟩, fun h => h.parts⟩

/-- No text is the name of a call of either kind. -/
theorem ScopeName.not_constructorName {name : String} (h : ScopeName name) :
    ¬ ConstructorName name := by
  rintro ⟨-, receiver, method, -, -, -, rfl⟩
  exact h.plain (by simp)

/-! ## Lists of names -/

/-- A rule for stripped names, with the check of it and the problem that breaking it is. -/
structure NameRule where
  Holds : String → Prop
  check : String → Bool
  problem : String → Problem
  strip_eq : ∀ {name}, Holds name → Text.strip name = name
  check_strip_iff : ∀ name, check (Text.strip name) = true ↔ Holds (Text.strip name)

/-- The rule for calls without a receiver. -/
def scopeRule : NameRule :=
  ⟨ScopeName, isScopeCall, .badScopeCall, ScopeName.stripped, isScopeCall_strip_iff⟩

/-- The rule for calls with a receiver. -/
def constructorRule : NameRule :=
  ⟨ConstructorName, isConstructorCall, .badConstructorCall, ConstructorName.stripped,
    isConstructorCall_strip_iff⟩

/-- What is wrong with a field of names: nothing if it is not given or all of its names are as they
    should be when stripped, and else the first one that is not. -/
inductive NameIssues (r : NameRule) (field : String) : Option (List String) → List Issue → Prop
  | absent : NameIssues r field none []
  | good {names : List String} (all : ∀ name ∈ names, r.Holds (Text.strip name)) :
      NameIssues r field (some names) []
  | bad {before after : List String} {name : String}
      (first : ∀ x ∈ before, r.Holds (Text.strip x)) (broken : ¬ r.Holds (Text.strip name)) :
      NameIssues r field (some (before ++ name :: after))
        [⟨[.field field], r.problem (Text.strip name)⟩]

variable {r : NameRule}

theorem checkNames_eq_find? (good : String → Bool) (problem : String → Problem)
    (names : List String) :
    checkNames good problem names =
      match names.find? fun name => !good (Text.strip name) with
      | some name => .fail (problem (Text.strip name))
      | none => .ok (names.map Text.strip) := by
  have hfind : (names.map Text.strip).find? (fun name => !good name) =
      (names.find? fun name => !good (Text.strip name)).map Text.strip := List.find?_map
  rw [checkNames, hfind]
  cases names.find? fun name => !good (Text.strip name) <;> rfl

/-- Names are checked as a whole, up to the first that breaks the rule. -/
theorem checkNames_cases (r : NameRule) (names : List String) :
    (∀ name ∈ names, r.Holds (Text.strip name)) ∧
        checkNames r.check r.problem names = .ok (names.map Text.strip) ∨
      ∃ before name after, names = before ++ name :: after ∧
        (∀ x ∈ before, r.Holds (Text.strip x)) ∧ ¬ r.Holds (Text.strip name) ∧
        checkNames r.check r.problem names = .fail (r.problem (Text.strip name)) := by
  have hcheck : ∀ name, (!r.check (Text.strip name)) = true ↔ ¬ r.Holds (Text.strip name) := by
    intro name
    rw [← r.check_strip_iff, Bool.not_eq_true', Bool.not_eq_true]
  cases hfind : names.find? fun name => !r.check (Text.strip name) with
  | none =>
    left
    have hall : ∀ name ∈ names, r.Holds (Text.strip name) := by
      intro name hname
      by_contra hbroken
      exact List.find?_eq_none.mp hfind name hname ((hcheck name).mpr hbroken)
    refine ⟨hall, ?_⟩
    rw [checkNames_eq_find?, hfind]
  | some name =>
    right
    obtain ⟨hbroken, before, after, hnames, hfirst⟩ := List.find?_eq_some_iff_append.mp hfind
    refine ⟨before, name, after, hnames, ?_, (hcheck name).mp hbroken, ?_⟩
    · intro x hx
      by_contra h
      have := hfirst x hx
      rw [(hcheck x).mpr h] at this
      cases this
    · rw [checkNames_eq_find?, hfind]

/-- The names that are read keep the rule. -/
theorem holds_of_readNames {v : Value} {names : List String}
    (h : readNames r.check r.problem v = .ok names) : ∀ name ∈ names, r.Holds name := by
  unfold readNames at h
  split at h
  · next given _ =>
    rcases checkNames_cases r given with ⟨hall, hok⟩ | ⟨_, _, _, -, -, -, hfail⟩
    · rw [hok] at h
      cases h
      intro name hname
      obtain ⟨x, hx, rfl⟩ := List.mem_map.mp hname
      exact hall x hx
    · rw [hfail] at h
      cases h
  · cases h

/-- Names that keep the rule are read as they are. -/
theorem readNames_of_holds {names : List String} (h : ∀ name ∈ names, r.Holds name) :
    readNames r.check r.problem (.list (names.map .text)) = .ok names := by
  have hstrip : names.map Text.strip = names := by
    conv => rhs; rw [← List.map_id names]
    exact List.map_congr_left fun name hname => r.strip_eq (h name hname)
  rw [readNames, Value.readList_texts]
  simp only
  rcases checkNames_cases r names with ⟨-, hok⟩ | ⟨before, name, after, hnames, -, hbroken, -⟩
  · rw [hok, hstrip]
  · have hname := h name (by rw [hnames]; exact List.mem_append_cons_self)
    rw [r.strip_eq hname] at hbroken
    exact absurd hname hbroken

/-- A field of names has no issue, or that of its first broken name. -/
theorem optional_readNames {fields : List (String × Value)} {field : String}
    {given : Option (List String)} (absent : List String)
    (h : fields.lookup field = given.map fun names => .list (names.map .text)) :
    ∃ issues, NameIssues r field given issues ∧
      Value.optional fields field absent (readNames r.check r.problem) =
        Checked.settle issues ((given.map (·.map Text.strip)).getD absent) := by
  rw [Value.optional, h]
  cases given with
  | none => exact ⟨[], .absent, rfl⟩
  | some names =>
    simp only [Option.map_some, readNames, Value.readList_texts]
    rcases checkNames_cases r names with
      ⟨hall, hok⟩ | ⟨before, name, after, rfl, hfirst, hbroken, hfail⟩
    · exact ⟨[], .good hall, by rw [hok]; rfl⟩
    · exact ⟨_, .bad hfirst hbroken, by rw [hfail]; rfl⟩

theorem NameIssues.ne_nil_iff {field : String} {given : Option (List String)}
    {issues : List Issue} (h : NameIssues r field given issues) :
    issues ≠ [] ↔ ∃ names ∈ given, ∃ name ∈ names, ¬ r.Holds (Text.strip name) := by
  cases h with
  | absent => simp
  | good all => simpa using all
  | @bad before after name _ broken =>
    refine iff_of_true (List.cons_ne_nil _ _) ⟨_, rfl, name, ?_, broken⟩
    exact List.mem_append_cons_self

/-! ## Settings -/

/-- Settings in normal form. -/
structure Normal (s : Settings) : Prop where
  scopeCalls : ∀ name ∈ s.scopeCalls, ScopeName name
  constructorCalls : ∀ name ∈ s.constructorCalls, ConstructorName name
  sizeLimit : 0 < s.sizeLimit

/-- No name is given for calls of both kinds. -/
theorem Normal.disjoint {s : Settings} (h : s.Normal) :
    s.scopeCalls.Disjoint s.constructorCalls := fun name hscope hconstructor =>
  (h.scopeCalls name hscope).not_constructorName (h.constructorCalls name hconstructor)

/-- What is standard passes its own check. -/
theorem normal_standard : standard.Normal := by
  have hscopes : readNames isScopeCall .badScopeCall
      (.list (standard.scopeCalls.map .text)) = .ok standard.scopeCalls := by decide +kernel
  have hconstructors : readNames isConstructorCall .badConstructorCall
      (.list (standard.constructorCalls.map .text)) = .ok standard.constructorCalls := by
    decide +kernel
  exact ⟨holds_of_readNames (r := scopeRule) hscopes,
    holds_of_readNames (r := constructorRule) hconstructors, by decide⟩

theorem pos_of_readPositive {v : Value} {n : Int} (h : readPositive v = .ok n) : 0 < n := by
  unfold readPositive at h
  split at h
  · split at h
    · next hpos =>
      cases h
      exact hpos
    · cases h
  · cases h

/-- What is read is normal. -/
theorem normal_of_ofValue {v : Value} {s : Settings} (h : ofValue v = .ok s) : s.Normal := by
  unfold ofValue at h
  split at h
  · cases h
  · obtain ⟨⟨scopes, constructors, limit, enc⟩, hread, rfl⟩ := Except.map_eq_ok_iff.mp h
    obtain ⟨hscopes, hread⟩ := Checked.both_eq_ok_iff.mp hread
    obtain ⟨hconstructors, hread⟩ := Checked.both_eq_ok_iff.mp hread
    obtain ⟨hlimit, -⟩ := Checked.both_eq_ok_iff.mp hread
    refine ⟨?_, ?_, ?_⟩
    · rcases Value.optional_eq_ok hscopes with rfl | ⟨v, hv⟩
      · exact normal_standard.scopeCalls
      · exact holds_of_readNames (r := scopeRule) hv
    · rcases Value.optional_eq_ok hconstructors with rfl | ⟨v, hv⟩
      · exact normal_standard.constructorCalls
      · exact holds_of_readNames (r := constructorRule) hv
    · rcases Value.optional_eq_ok hlimit with rfl | ⟨v, hv⟩
      · exact normal_standard.sizeLimit
      · exact pos_of_readPositive hv

/-- What is normal is read as it is written. -/
theorem ofValue_toValue {s : Settings} (h : s.Normal) : ofValue s.toValue = .ok s := by
  have hscopes : readNames isScopeCall .badScopeCall (.list (s.scopeCalls.map .text)) =
      .ok s.scopeCalls := readNames_of_holds (r := scopeRule) h.scopeCalls
  have hconstructors : readNames isConstructorCall .badConstructorCall
      (.list (s.constructorCalls.map .text)) = .ok s.constructorCalls :=
    readNames_of_holds (r := constructorRule) h.constructorCalls
  have hlimit : readPositive (.int s.sizeLimit) = .ok s.sizeLimit := by
    simp [readPositive, Value.readInt, h.sizeLimit]
  simp [ofValue, toValue, Value.readObject, Value.optional, List.lookup_cons, hscopes,
    hconstructors, hlimit, Value.readText, Checked.both, Checked.under, Except.mapError, Except.map]

/-! ## Objects of declared types -/

/-- What an object gives for the settings. -/
structure Given where
  scopeCalls : Option (List String)
  constructorCalls : Option (List String)
  sizeLimit : Option Int
  encoding : Option String

namespace Given

/-- The fields give this, each with a value of its type; there may be others. -/
structure Fits (g : Given) (fields : List (String × Value)) : Prop where
  scopeCalls : fields.lookup "scope_block_calls" =
    g.scopeCalls.map fun names => .list (names.map .text)
  constructorCalls : fields.lookup "type_constructor_calls" =
    g.constructorCalls.map fun names => .list (names.map .text)
  sizeLimit : fields.lookup "max_file_size" = g.sizeLimit.map .int
  encoding : fields.lookup "encoding" = g.encoding.map .text

/-- The settings that are given: names are stripped, and what is not given is standard. -/
def settings (g : Given) : Settings :=
  { scopeCalls := (g.scopeCalls.map (·.map Text.strip)).getD standard.scopeCalls
    constructorCalls := (g.constructorCalls.map (·.map Text.strip)).getD standard.constructorCalls
    sizeLimit := g.sizeLimit.getD standard.sizeLimit
    encoding := g.encoding.getD standard.encoding }

/-- A stripped name breaks the rule for its field, or the limit is not positive. -/
def Broken (g : Given) : Prop :=
  (∃ names ∈ g.scopeCalls, ∃ name ∈ names, ¬ ScopeName (Text.strip name)) ∨
    (∃ names ∈ g.constructorCalls, ∃ name ∈ names, ¬ ConstructorName (Text.strip name)) ∨
    ∃ n ∈ g.sizeLimit, n ≤ 0

end Given

/-- What is wrong with the limit: nothing if it is not given or positive. -/
inductive LimitIssues : Option Int → List Issue → Prop
  | absent : LimitIssues none []
  | good {n : Int} (positive : 0 < n) : LimitIssues (some n) []
  | bad {n : Int} (low : n ≤ 0) :
      LimitIssues (some n) [⟨[.field "max_file_size"], .notPositive⟩]

theorem LimitIssues.ne_nil_iff {given : Option Int} {issues : List Issue}
    (h : LimitIssues given issues) : issues ≠ [] ↔ ∃ n ∈ given, n ≤ 0 := by
  cases h with
  | absent => simp
  | good positive => simpa using positive
  | bad low => simpa using low

theorem optional_readPositive {fields : List (String × Value)} {given : Option Int} (absent : Int)
    (h : fields.lookup "max_file_size" = given.map .int) :
    ∃ issues, LimitIssues given issues ∧
      Value.optional fields "max_file_size" absent readPositive =
        Checked.settle issues (given.getD absent) := by
  rw [Value.optional, h]
  cases given with
  | none => exact ⟨[], .absent, rfl⟩
  | some n =>
    rcases Int.lt_or_le 0 n with hpos | hlow
    · exact ⟨[], .good hpos, by simp [readPositive, Value.readInt, hpos]; rfl⟩
    · have hnot : ¬ 0 < n := by omega
      exact ⟨_, .bad hlow, by simp [readPositive, Value.readInt, hnot]; rfl⟩

theorem optional_readText {fields : List (String × Value)} {field absent : String}
    {given : Option String} (h : fields.lookup field = given.map .text) :
    Value.optional fields field absent Value.readText = .ok (given.getD absent) := by
  rw [Value.optional, h]
  cases given <;> rfl

/-- An object of declared types is read field by field. -/
theorem ofValue_of_fits {g : Given} {fields : List (String × Value)} (h : g.Fits fields) :
    ∃ scopes constructors limit,
      NameIssues scopeRule "scope_block_calls" g.scopeCalls scopes ∧
      NameIssues constructorRule "type_constructor_calls" g.constructorCalls constructors ∧
      LimitIssues g.sizeLimit limit ∧
      ofValue (.object fields) = Checked.settle (scopes ++ constructors ++ limit) g.settings := by
  obtain ⟨scopes, hscopes, hreadScopes⟩ :=
    optional_readNames (r := scopeRule) standard.scopeCalls h.scopeCalls
  obtain ⟨constructors, hconstructors, hreadConstructors⟩ :=
    optional_readNames (r := constructorRule) standard.constructorCalls h.constructorCalls
  obtain ⟨limit, hlimit, hreadLimit⟩ := optional_readPositive standard.sizeLimit h.sizeLimit
  have hreadEncoding : Value.optional fields "encoding" standard.encoding Value.readText =
      Checked.settle [] (g.encoding.getD standard.encoding) := optional_readText h.encoding
  refine ⟨scopes, constructors, limit, hscopes, hconstructors, hlimit, ?_⟩
  simp only [scopeRule] at hreadScopes
  simp only [constructorRule] at hreadConstructors
  simp only [ofValue, Value.readObject, hreadScopes, hreadConstructors, hreadLimit, hreadEncoding,
    Checked.both_settle, Checked.map_settle, List.append_nil, List.append_assoc]
  rfl

end Settings

/-- Settings that are read from any value are in normal form, so that no name is given for calls of
    both kinds, and are read again as they are when they are written. An object in which all that is
    given for the settings has its declared type is read unless a stripped name breaks the rule for
    its field or the limit is not positive; then there is one issue for each field where this is so,
    in the order of the fields. -/
theorem settings_normal :
    (∀ (v : Value) (s : Settings), Settings.ofValue v = .ok s →
      s.Normal ∧ s.scopeCalls.Disjoint s.constructorCalls ∧ Settings.ofValue s.toValue = .ok s) ∧
    ∀ (g : Settings.Given) (fields : List (String × Value)), g.Fits fields →
      ((∃ issues, Settings.ofValue (.object fields) = .error issues) ↔ g.Broken) ∧
      (¬ g.Broken → Settings.ofValue (.object fields) = .ok g.settings) ∧
      ∀ issues, Settings.ofValue (.object fields) = .error issues →
        ∃ scopes constructors limit,
          Settings.NameIssues Settings.scopeRule "scope_block_calls" g.scopeCalls scopes ∧
          Settings.NameIssues Settings.constructorRule "type_constructor_calls" g.constructorCalls
            constructors ∧
          Settings.LimitIssues g.sizeLimit limit ∧ issues = scopes ++ constructors ++ limit := by
  refine ⟨?_, ?_⟩
  · intro v s h
    have hnormal := Settings.normal_of_ofValue h
    exact ⟨hnormal, hnormal.disjoint, Settings.ofValue_toValue hnormal⟩
  · intro g fields hfits
    obtain ⟨scopes, constructors, limit, hscopes, hconstructors, hlimit, hread⟩ :=
      Settings.ofValue_of_fits hfits
    have hbroken : scopes ++ constructors ++ limit ≠ [] ↔ g.Broken := by
      rw [Settings.Given.Broken, ← hlimit.ne_nil_iff]
      have hs := hscopes.ne_nil_iff
      have hc := hconstructors.ne_nil_iff
      simp only [Settings.scopeRule] at hs
      simp only [Settings.constructorRule] at hc
      rw [← hs, ← hc]
      simp only [ne_eq, List.append_eq_nil_iff]
      tauto
    refine ⟨?_, ?_, ?_⟩
    · rw [hread, ← hbroken]
      simp [Checked.settle_eq_error_iff]
    · intro h
      have hnil : scopes ++ constructors ++ limit = [] := by
        by_contra hne
        exact h (hbroken.mp hne)
      rw [hread, hnil]
      rfl
    · intro issues h
      rw [hread] at h
      obtain ⟨rfl, -⟩ := Checked.settle_eq_error_iff.mp h
      exact ⟨scopes, constructors, limit, hscopes, hconstructors, hlimit, rfl⟩

/-- A name of blanks and one that ends in a point when it is stripped, with a limit of zero. -/
example :
    Settings.ofValue (.object
      [("scope_block_calls", .list [.text "included ", .text "\t"]),
       ("type_constructor_calls", .list [.text " Class. "]), ("max_file_size", .int 0)]) =
      .error
        [⟨[.field "scope_block_calls"], .badScopeCall ""⟩,
         ⟨[.field "type_constructor_calls"], .badConstructorCall "Class."⟩,
         ⟨[.field "max_file_size"], .notPositive⟩] := by
  decide +kernel

end MethodVisibility
