/-
  Directive calls and their arguments.

  `public`, `private` and `protected` as calls without a receiver. Without arguments
  such a call sets the default level; with arguments it sets the level of the named
  methods, and a definition may stand in the place of a name. All arguments are read
  before anything happens: one bad argument rejects the whole call.

  `Context.directiveTargets` reads a call. The first objection in document order
  rejects it; a call with a block is rejected before its arguments are read, and one
  whose arguments name nothing after.
-/
import MethodVisibility.Context
import MethodVisibility.Record

namespace MethodVisibility

/-- What a directive applies to. -/
inductive Target where
  | name (identifier : String)
  /-- A definition in the place of a name. -/
  | definition (node : Node)

/-- What is wrong with a directive call. -/
inductive Objection where
  | takesNoBlock
  | namesNoMethods
  | singletonOutside
  | notPlain
  | emptyName
  | unsupported (kind : String)
deriving DecidableEq, Repr

/-- An objection to a directive and the site of what is objected to. -/
structure Rejection where
  level : Level
  objection : Objection
  site : Site
deriving DecidableEq, Repr

/-- The text of a rejection. -/
def Rejection.message (r : Rejection) : String :=
  match r.objection with
  | .takesNoBlock => String.join ["'", r.level.word, "' does not take a block"]
  | .namesNoMethods => String.join ["'", r.level.word, "' names no methods"]
  | .singletonOutside =>
    String.join ["'", r.level.word,
      "' cannot target a singleton method definition outside 'class << self'"]
  | .notPlain =>
    String.join ["'", r.level.word,
      "' argument must be a plain name, not an interpolated or escaped literal"]
  | .emptyName => String.join ["'", r.level.word, "' argument is an empty name"]
  | .unsupported kind => String.join ["Unsupported '", r.level.word, "' argument: ", kind]

/-- A rejection as a remark on the file. -/
def Rejection.diagnostic (r : Rejection) : Diagnostic :=
  ⟨r.message, some r.site⟩

namespace Node

/-- Whether a node is a definition. -/
def isDefinition (n : Node) : Bool :=
  n.kind == "method" || n.kind == "singleton_method"

/-- Whether a node is a string or symbol that may have parts. -/
def isLiteral (n : Node) : Bool :=
  n.kind ∈ ["string", "delimited_symbol", "bare_symbol", "bare_string"]

/-- Whether a node is an element of a word list, which has its text to itself. -/
def isBareWord (n : Node) : Bool :=
  n.kind == "bare_symbol" || n.kind == "bare_string"

/-- Whether a node is a list of names. -/
def isNameList (n : Node) : Bool :=
  n.kind ∈ ["array", "symbol_array", "string_array"]

end Node

namespace Context

/-- A symbol's text without its colon. -/
def symbolName (ctx : Context) (n : Node) : String :=
  let text := (ctx.text n).toList
  match text with
  | ':' :: rest => String.ofList rest
  | _ => String.ofList text

/-- The name that a literal spells: the texts of its parts, or its own text if it is a
    bare word without parts. -/
def literalText (ctx : Context) (n : Node) : String :=
  match n.namedChildren with
  | [] => if n.isBareWord then ctx.text n else ""
  | parts => String.join (parts.map ctx.text)

/-- The name that a symbol or string gives. A literal gives one only if all of its
    parts are plain and it is not empty. -/
def nameOf (ctx : Context) (n : Node) : Except (Objection × Site) String :=
  if n.kind = "simple_symbol" then .ok (ctx.symbolName n)
  else if n.isLiteral then
    if n.namedChildren.any (·.kind != "string_content") then .error (.notPlain, n.site)
    else if ctx.literalText n = "" then .error (.emptyName, n.site)
    else .ok (ctx.literalText n)
  else .error (.unsupported n.kind, n.site)

/-- The names of the elements of a list, up to the first objection. -/
def namesOf (ctx : Context) : List Node → Except (Objection × Site) (List String)
  | [] => .ok []
  | n :: rest =>
    match ctx.nameOf n with
    | .error e => .error e
    | .ok name => (ctx.namesOf rest).map (name :: ·)

/-- The targets that one argument gives. -/
def argumentTargets (ctx : Context) (inSingleton : Bool) (arg : Node) :
    Except (Objection × Site) (List Target) :=
  if arg.kind = "method" then .ok [.definition arg]
  else if arg.kind = "singleton_method" then
    if inSingleton then .ok [.definition arg] else .error (.singletonOutside, arg.site)
  else if arg.isNameList then
    (ctx.namesOf (Node.dropComments arg.namedChildren)).map (·.map .name)
  else (ctx.nameOf arg).map fun name => [.name name]

/-- The targets that several arguments give, up to the first objection. -/
def argumentsTargets (ctx : Context) (inSingleton : Bool) :
    List Node → Except (Objection × Site) (List Target)
  | [] => .ok []
  | arg :: rest =>
    match ctx.argumentTargets inSingleton arg with
    | .error e => .error e
    | .ok targets => (ctx.argumentsTargets inSingleton rest).map (targets ++ ·)

/-- The arguments of a call without comments. -/
def arguments (call : Node) : List Node :=
  match call.child? "arguments" with
  | none => []
  | some list => Node.dropComments list.namedChildren

/-- The targets of a directive call, none if it has no arguments. -/
def targets (ctx : Context) (inSingleton : Bool) (call : Node) :
    Except (Objection × Site) (List Target) :=
  if (call.child? "block").isSome then .error (.takesNoBlock, call.site)
  else
    match arguments call with
    | [] => .ok []
    | args =>
      match ctx.argumentsTargets inSingleton args with
      | .error e => .error e
      | .ok [] => .error (.namesNoMethods, call.site)
      | .ok found => .ok found

/-- The targets of a directive call that sets `level`, or why it is rejected. -/
def directiveTargets (ctx : Context) (inSingleton : Bool) (level : Level) (call : Node) :
    Except Rejection (List Target) :=
  (ctx.targets inSingleton call).mapError fun (objection, site) => ⟨level, objection, site⟩

end Context

end MethodVisibility
