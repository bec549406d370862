/-
  What a walk over a tree looks up: the source text and the names of the calls whose
  block is a scope. Readings of single nodes that need the text are here.
-/
import MethodVisibility.Level
import MethodVisibility.Scope
import MethodVisibility.Source

namespace MethodVisibility

/-- The text under a tree and the calls whose block is a scope. -/
structure Context where
  source : Source
  /-- Calls without a receiver whose block has a default level of its own. -/
  scopeCalls : List String
  /-- Calls `Receiver.method` whose block is the body of a new type. -/
  constructorCalls : List String

namespace Context

/-- The text of a node. -/
def text (ctx : Context) (n : Node) : String :=
  ctx.source.text n

/-- The name of a type, or of a method that is defined. -/
def name? (ctx : Context) (n : Node) : Option String :=
  (n.child? "name").map ctx.text

/-- The name of the method that a call calls; empty if the call has none. -/
def callee (ctx : Context) (call : Node) : String :=
  ((call.child? "method").map ctx.text).getD ""

/-- The kind of scope that the block of a call is, if it is one. -/
def blockScope? (ctx : Context) (call : Node) : Option ScopeKind :=
  match call.child? "receiver" with
  | none => if ctx.callee call ∈ ctx.scopeCalls then some .subScope else none
  | some receiver =>
    if String.join [ctx.text receiver, ".", ctx.callee call] ∈ ctx.constructorCalls then
      some .typeBody
    else none

/-- The constant to which an assignment binds its value, if `holder` is one that binds
    a constant. -/
def boundConstant? (ctx : Context) (holder : Option Node) : Option String :=
  match holder with
  | none => none
  | some h =>
    if h.kind = "assignment" then
      match h.child? "left" with
      | some left =>
        if left.kind = "constant" || left.kind = "scope_resolution" then some (ctx.text left)
        else none
      | none => none
    else none

end Context

end MethodVisibility
