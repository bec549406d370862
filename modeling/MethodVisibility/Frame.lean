/-
  Frames: what is known about one open scope.

  `Frame.inside` gives the frame of a scope from the frame around it. Only the owner
  and the singleton flag of the outer frame reach the inner one; the default level
  and the table start afresh.
-/
import MethodVisibility.Event
import MethodVisibility.Table

namespace MethodVisibility

/-- The state of one open scope. -/
structure Frame where
  kind : ScopeKind
  name : Option String
  /-- Qualified name of the type that plain definitions belong to. -/
  owner : Option String
  /-- Whether plain definitions belong to the singleton class. -/
  singleton : Bool
  /-- The level of the definitions to come. -/
  level : Level
  table : Table
deriving DecidableEq, Repr

namespace Frame

/-- The frame of a file before its first event. -/
def topLevel : Frame :=
  { kind := .topLevel, name := none, owner := none, singleton := false
    level := .pub, table := .empty }

/-- The qualified name of a type body called `name` inside a type called `outer`. An
    absent or empty name qualifies nothing: the inner name then stands alone. -/
def qualify (outer name : Option String) : Option String :=
  match outer, name with
  | some o, some n => if o = "" || n = "" then some n else some (String.join [o, "::", n])
  | _, _ => name

/-- The owner of plain definitions in a scope opened inside `outer`. -/
def ownerInside (outer : Frame) (kind : ScopeKind) (name : Option String) : Option String :=
  if kind = .typeBody then qualify outer.owner name else outer.owner

/-- Whether plain definitions of a scope opened inside `outer` belong to the singleton
    class. -/
def singletonInside (outer : Frame) (kind : ScopeKind) : Bool :=
  kind = .singletonBody || (kind = .subScope && outer.singleton)

/-- The frame of a scope opened inside `outer`. -/
def inside (outer : Frame) (kind : ScopeKind) (name : Option String) : Frame :=
  { kind, name
    owner := outer.ownerInside kind name
    singleton := outer.singletonInside kind
    level := .pub
    table := .empty }

/-- Writes a level for a name into the table of a frame. -/
def assign (f : Frame) (name : String) (level : Level) (site : Option Site) : Frame :=
  { f with table := f.table.assign name level site }

/-- Writes a level for each of several names, in order, without a definition. -/
def assignAll (f : Frame) (names : List String) (level : Level) : Frame :=
  names.foldl (fun g name => g.assign name level none) f

end Frame

end MethodVisibility
