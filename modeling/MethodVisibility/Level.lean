/-
  Access levels of methods.

  Each level has one keyword, and reading a keyword back gives the level
  (`Level.ofWord?_word`); no other word is read (`Level.ofWord?_eq_some_iff`).
-/

namespace MethodVisibility

/-- Who may call a method. -/
inductive Level where
  | pub
  | priv
  | prot
deriving DecidableEq, Repr

/-- The keyword that sets a level. -/
def Level.word : Level → String
  | .pub => "public"
  | .priv => "private"
  | .prot => "protected"

/-- The level that a keyword sets. -/
def Level.ofWord? (w : String) : Option Level :=
  if w = "public" then some .pub
  else if w = "private" then some .priv
  else if w = "protected" then some .prot
  else none

@[simp] theorem Level.ofWord?_word (l : Level) : Level.ofWord? l.word = some l := by
  cases l <;> decide

theorem Level.ofWord?_eq_some_iff {w : String} {l : Level} :
    Level.ofWord? w = some l ↔ w = l.word := by
  constructor
  · intro h
    unfold Level.ofWord? at h
    split at h
    · cases h; assumption
    · split at h
      · cases h; assumption
      · split at h
        · cases h; assumption
        · cases h
  · rintro rfl
    exact Level.ofWord?_word l

end MethodVisibility
