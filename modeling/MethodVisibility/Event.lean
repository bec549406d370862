/-
  Declaration events.

  An `Event` is one thing that happens in a file as far as visibility goes, in
  document order. The site of an event is optional, since a stream may be written by
  hand. An `Item` is what a stream may hold at one position: an event, or a value
  that is none.
-/
import MethodVisibility.Level
import MethodVisibility.Scope
import MethodVisibility.Site

namespace MethodVisibility

/-- One step of a file, as far as the visibility of methods is concerned. -/
inductive Event where
  /-- A scope body starts. Only type bodies have a name. -/
  | openScope (kind : ScopeKind) (name : Option String) (site : Option Site)
  /-- The innermost open scope ends. -/
  | closeScope (site : Option Site)
  /-- From here on definitions of the scope have this level. -/
  | bare (level : Level) (site : Option Site)
  /-- The named methods of the scope have this level. -/
  | targeted (level : Level) (targets : List String) (site : Option Site)
  /-- A method is defined. -/
  | method (identifier : String) (site : Option Site)
  /-- A method is defined on a receiver of its own. -/
  | singletonMethod (identifier : String) (site : Option Site)
deriving DecidableEq, Repr

/-- Where an event stands. -/
def Event.site : Event → Option Site
  | .openScope _ _ site => site
  | .closeScope site => site
  | .bare _ site => site
  | .targeted _ _ site => site
  | .method _ site => site
  | .singletonMethod _ site => site

/-- What a stream holds at one position. -/
inductive Item where
  | event (event : Event)
  /-- A value that is no event. -/
  | alien
deriving DecidableEq, Repr

end MethodVisibility
