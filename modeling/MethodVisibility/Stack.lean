/-
  The stack of open frames.

  The frame of the file is there from the start and is never popped, so a stack is
  its innermost frame with the frames around it. `push`, `pop` and `finish` refuse
  badly nested streams with a `Fault`; a refused operation changes nothing, since it
  returns no stack.

  `Stack.Op` is the vocabulary of the stack as data and `Stack.perform` runs one
  operation; `Stack.history` runs a list of them and goes on after a refusal.
-/
import MethodVisibility.Frame

namespace MethodVisibility

/-- How a stream can be badly nested. -/
inductive Fault where
  | topLevelReopened
  | unmatchedClose
  /-- Scopes left open at the end: how many, and kind and name of the innermost. -/
  | scopesLeftOpen (count : Nat) (kind : ScopeKind) (name : Option String)
deriving DecidableEq, Repr

/-- A name behind a kind of scope, if there is one that is not empty. -/
def Fault.nameText : Option String → String
  | none => ""
  | some name => if name = "" then "" else String.join [" ", name]

/-- The text of a fault. -/
def Fault.text : Fault → String
  | .topLevelReopened => "Top-level scope cannot be reopened"
  | .unmatchedClose => "Scope close without matching scope open"
  | .scopesLeftOpen count kind name =>
    String.join [toString count, " scope(s) still open at end of stream (innermost: ",
      kind.word, nameText name, ")"]

/-- The innermost open frame and the frames around it, innermost first. -/
structure Stack where
  current : Frame
  outer : List Frame
deriving DecidableEq, Repr

namespace Stack

/-- The stack of a file before its first event. -/
def initial : Stack := ⟨.topLevel, []⟩

/-- How many frames are open. -/
def depth (s : Stack) : Nat := s.outer.length + 1

/-- The open frames, innermost first. -/
def frames (s : Stack) : List Frame := s.current :: s.outer

/-- Opens a scope. -/
def push (s : Stack) (kind : ScopeKind) (name : Option String) : Except Fault Stack :=
  if kind = .topLevel then .error .topLevelReopened
  else .ok ⟨s.current.inside kind name, s.current :: s.outer⟩

/-- Closes the innermost scope and gives its frame. -/
def pop (s : Stack) : Except Fault (Frame × Stack) :=
  match s.outer with
  | [] => .error .unmatchedClose
  | frame :: rest => .ok (s.current, ⟨frame, rest⟩)

/-- The frame of the file at the end of a stream. -/
def finish (s : Stack) : Except Fault Frame :=
  match s.outer with
  | [] => .ok s.current
  | _ :: _ => .error (.scopesLeftOpen s.outer.length s.current.kind s.current.name)

/-- Changes the innermost frame. -/
def modify (s : Stack) (change : Frame → Frame) : Stack :=
  { s with current := change s.current }

/-- Sets the level of the definitions to come. -/
def setDefault (s : Stack) (level : Level) : Stack :=
  s.modify ({ · with level := level })

/-- Writes a level for a name into the innermost frame. -/
def assign (s : Stack) (name : String) (level : Level) (site : Option Site) : Stack :=
  s.modify (·.assign name level site)

/-- Writes a level for each of several names into the innermost frame. -/
def assignAll (s : Stack) (names : List String) (level : Level) : Stack :=
  s.modify (·.assignAll names level)

/-- The operations on a stack, as data. -/
inductive Op where
  | push (kind : ScopeKind) (name : Option String)
  | pop
  | finish
  | setDefault (level : Level)
  | assign (name : String) (level : Level) (site : Option Site)
deriving DecidableEq, Repr

/-- Runs one operation: the stack after it, and the frame that it closes, if it is one
    that closes a frame. -/
def perform (s : Stack) : Op → Except Fault (Stack × Option Frame)
  | .push kind name => (s.push kind name).map fun s' => (s', none)
  | .pop => s.pop.map fun (frame, s') => (s', some frame)
  | .finish => s.finish.map fun frame => (s, some frame)
  | .setDefault level => .ok (s.setDefault level, none)
  | .assign name level site => .ok (s.assign name level site, none)

/-- The stack after an operation, which is the stack before it if it is refused. -/
def after (s : Stack) (op : Op) : Stack :=
  match s.perform op with
  | .ok (s', _) => s'
  | .error _ => s

/-- What one operation of a history did. -/
structure Outcome where
  stack : Stack
  closed : Except Fault (Option Frame)

/-- Runs operations one after the other, refused ones included, and tells after each
    how the stack stands and what was closed or refused. -/
def history (s : Stack) : List Op → List Outcome
  | [] => []
  | op :: rest => ⟨s.after op, (s.perform op).map (·.2)⟩ :: history (s.after op) rest

end Stack

end MethodVisibility
