/-
  Resolving streams, trees, texts and files.

  Each way in comes as a pair: the resolution, and the notes that are made on the way.
  Parsing is not done here. A text is resolved with a function that gives the tree of
  a text, and any function will do.
-/
import MethodVisibility.Disk
import MethodVisibility.Feed
import MethodVisibility.FileText
import MethodVisibility.Settings
import MethodVisibility.Stored
import MethodVisibility.Walk

namespace MethodVisibility

/-- A tree of a text, and whether the text has errors of syntax. -/
structure ParsedText where
  root : Node
  broken : Bool

/-- Gives the tree of a text. -/
abbrev Parser := String → ParsedText

/-- Why there is no resolution. -/
inductive ResolveError where
  | stream (failure : Failure)
  | file (error : FileError)
deriving DecidableEq, Repr

/-! ## Streams -/

/-- Resolves a stream. -/
def resolveItems (items : List Item) (label : Option String) : Except ResolveError Resolution :=
  match Run.resolve items with
  | .ok records => .ok ⟨records, [], label⟩
  | .error failure => .error (.stream failure)

/-- What is noted while a stream is resolved. -/
def notesOfItems (items : List Item) : List Note :=
  Run.initial.narrate 0 (Feed.ofItems items)

/-! ## Trees -/

/-- Resolves what a walk said. -/
def resolveOutputs (outputs : List Output) (label : Option String) :
    Except ResolveError Resolution :=
  match Run.resolve (Feed.items (outputs.map Output.feed)) with
  | .ok records => .ok ⟨records, (rejectionsOf outputs).map Rejection.diagnostic, label⟩
  | .error failure => .error (.stream failure)

/-- Resolves a tree, whose root is held by `holder` if it is part of a larger one. -/
def resolveTree (ctx : Context) (holder : Option Node) (root : Node) (label : Option String) :
    Except ResolveError Resolution :=
  resolveOutputs (ctx.outputs holder root) label

/-- What is noted while a tree is resolved. -/
def notesOfTree (ctx : Context) (holder : Option Node) (root : Node) : List Note :=
  Run.initial.narrate 0 (ctx.feed holder root)

/-! ## Texts -/

/-- Resolves a text. -/
def resolveText (settings : Settings) (parse : Parser) (text : String) (label : Option String) :
    Except ResolveError Resolution :=
  resolveTree (settings.context text) none (parse text).root label

/-- The closing note on a text of which directives were passed over. -/
def closingNotes (label : Option String) : Except ResolveError Resolution → List Note
  | .ok r => if r.diagnostics = [] then [] else [.ignoredConstructs label r.diagnostics.length]
  | .error _ => []

/-- What is noted while a text is resolved. -/
def notesOfText (settings : Settings) (parse : Parser) (text : String) (label : Option String) :
    List Note :=
  (if (parse text).broken then [.brokenText] else [])
    ++ notesOfTree (settings.context text) none (parse text).root
    ++ closingNotes label (resolveText settings parse text label)

/-! ## Files -/

/-- Resolves a file. -/
def resolveFile (settings : Settings) (parse : Parser) (fs : FileSystem) (path : Path) :
    Except ResolveError Resolution :=
  match fs.read settings path with
  | .error e => .error (.file e)
  | .ok text => resolveText settings parse text (some path.text)

/-- What is noted of a file that is not read. -/
def FileError.notes : FileError → List Note
  | .tooLarge path _ _ => [.oversizeFile path.text]
  | _ => []

/-- What is noted while a file is resolved. -/
def notesOfFile (settings : Settings) (parse : Parser) (fs : FileSystem) (path : Path) :
    List Note :=
  match fs.read settings path with
  | .error e => e.notes
  | .ok text => notesOfText settings parse text (some path.text)

end MethodVisibility
