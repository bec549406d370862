/-
  Kinds of lexical scope.
-/

namespace MethodVisibility

/-- What a scope is the body of. -/
inductive ScopeKind where
  /-- The file itself. -/
  | topLevel
  /-- The body of a class or module. -/
  | typeBody
  /-- The body of `class << self`. -/
  | singletonBody
  /-- A block with a default level of its own that belongs to the type around it. -/
  | subScope
deriving DecidableEq, Repr

/-- The word for a kind of scope in messages. -/
def ScopeKind.word : ScopeKind → String
  | .topLevel => "top_level"
  | .typeBody => "type_body"
  | .singletonBody => "singleton_context_body"
  | .subScope => "transparent_sub_scope"

/-- The kind of scope that a word of `ScopeKind.word` stands for. -/
def ScopeKind.ofWord? (w : String) : Option ScopeKind :=
  [ScopeKind.topLevel, .typeBody, .singletonBody, .subScope].find? (·.word == w)

@[simp] theorem ScopeKind.ofWord?_word (k : ScopeKind) : ScopeKind.ofWord? k.word = some k := by
  cases k <;> decide

end MethodVisibility
