/-
  Notes: what is said along the way.

  A note is a cause with its data; weight and wording are functions of it. Nothing in
  the resolution reads a note.
-/
import MethodVisibility.Record
import MethodVisibility.Stack

namespace MethodVisibility

/-- How much a note matters. -/
inductive Weight where
  | debug
  | info
  | warning
deriving DecidableEq, Repr

/-- Something worth saying along the way. -/
inductive Note where
  /-- The text has errors of syntax. -/
  | brokenText
  /-- A definition without a name was passed over. -/
  | unnamedDefinition (start : Point)
  /-- A directive was passed over. -/
  | ignoredDirective (diagnostic : Diagnostic)
  | openedFrame (kind : ScopeKind) (owner : Option String) (depth : Nat)
  | closedFrame (kind : ScopeKind) (entries : Nat)
  /-- A name was mentioned by directives and never defined. -/
  | droppedName (identifier : String) (owner : Option String) (level : Level)
  | resolved (records events : Nat)
  /-- How many directives of a file were passed over. -/
  | ignoredConstructs (label : Option String) (count : Nat)
  | oversizeFile (path : String)
deriving DecidableEq, Repr

namespace Note

/-- How much a note matters. -/
def weight : Note → Weight
  | .brokenText | .ignoredDirective _ | .oversizeFile _ => .warning
  | .ignoredConstructs _ _ => .info
  | _ => .debug

/-- The text of an owner in a note. -/
def ownerText (owner : Option String) : String :=
  owner.getD "None"

/-- The line of a site in a note. -/
def lineText : Option Site → String
  | none => "?"
  | some site => toString site.lineStart

/-- The label of a text in a note. -/
def labelText : Option String → String
  | none => "<source>"
  | some label => if label = "" then "<source>" else label

/-- The text of a note. -/
def text : Note → String
  | .brokenText => "Ruby source contains syntax errors; results may be partial"
  | .unnamedDefinition start =>
    String.join ["Skipping unnamed method definition at ", start.describe]
  | .ignoredDirective d =>
    String.join ["Ignoring visibility directive at line ", lineText d.site, ": ", d.message]
  | .openedFrame kind owner depth =>
    String.join ["Opened ", kind.word, " frame (owner=", ownerText owner, ", depth=",
      toString depth, ")"]
  | .closedFrame kind entries =>
    String.join ["Closed ", kind.word, " frame with ", toString entries, " entries"]
  | .droppedName identifier owner level =>
    String.join ["Dropping undefined method '", identifier, "' (owner=", ownerText owner,
      ", visibility=", level.word, ")"]
  | .resolved records events =>
    String.join ["Resolved ", toString records, " method(s) from ", toString events, " events"]
  | .ignoredConstructs label count =>
    String.join [labelText label, ": ignored ", toString count, " unrecognised construct(s)"]
  | .oversizeFile path => String.join ["Skipping oversize file ", path]

end Note

/-- What is said of the names of a closing frame that yield no record. -/
def Frame.notes (f : Frame) : List Note :=
  (f.table.entries.filter (·.2.site.isNone)).map fun row =>
    .droppedName row.1 f.owner row.2.level

/-- What is said of an operation on a stack. -/
def Stack.notes (s : Stack) (op : Stack.Op) : List Note :=
  match op, s.perform op with
  | .push kind _, .ok (s', _) => [.openedFrame kind s'.current.owner s'.depth]
  | .pop, .ok (_, some frame) => [.closedFrame frame.kind frame.table.size]
  | _, _ => []

/-- What is said during a list of operations on a stack. -/
def Stack.historyNotes (s : Stack) : List Stack.Op → List Note
  | [] => []
  | op :: rest => s.notes op ++ (s.after op).historyNotes rest

end MethodVisibility
