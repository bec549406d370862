/-
  Resolution of a stream of events.

  One pass from left to right over a stack of frames. A directive or definition
  writes into the innermost frame; a frame turns into records when it closes, the
  file's own frame last. A method defined on a receiver of its own is recorded at
  once, unless the innermost scope is a singleton body, where it is as any other.

  `Run.apply` is one step. A step that fails returns no state, so nothing of it
  remains. `Run.resolve` takes a whole stream.
-/
import MethodVisibility.Record
import MethodVisibility.Stack

namespace MethodVisibility

/-- The line of a site behind a position. -/
def lineText : Option Site → String
  | none => ""
  | some site => String.join [", line ", toString site.lineStart]

/-- Adds to a text the place in the stream where it was found: the position, and the
    line if the event there has a site. Without a position nothing is added. -/
def located (text : String) (position : Option Int) (site : Option Site) : String :=
  match position with
  | none => text
  | some p => String.join [text, " (event ", toString p, lineText site, ")"]

/-- Why a stream has no resolution. -/
inductive Failure where
  /-- Bad nesting, with the position in the stream and the site of the event there. -/
  | malformed (fault : Fault) (position : Option Nat) (site : Option Site)
  /-- The stream holds a value that is no event. -/
  | notAnEvent
  /-- A definition that is recorded at once has no site. -/
  | siteMissing
deriving DecidableEq, Repr

/-- What yields records: a frame that closes, or a definition that is recorded at once. -/
inductive Emission where
  | closing (frame : Frame)
  | atOnce (identifier : String) (site : Option Site) (owner : Option String)
deriving DecidableEq, Repr

/-- The records of an emission. -/
def Emission.records : Emission → Except Failure (List MethodRecord)
  | .closing frame => .ok frame.records
  | .atOnce identifier (some site) owner => .ok [.ofSingleton identifier site owner]
  | .atOnce _ none _ => .error .siteMissing

/-- The records of several emissions, one list for each, up to the first failure. -/
def Emission.recordsAll : List Emission → Except Failure (List (List MethodRecord))
  | [] => .ok []
  | e :: rest =>
    match e.records with
    | .error failure => .error failure
    | .ok records => (recordsAll rest).map (records :: ·)

/-- The state of a resolution: the open frames and the records so far. -/
structure Run where
  stack : Stack
  records : List MethodRecord
deriving DecidableEq, Repr

namespace Run

/-- The state before the first event. -/
def initial : Run := ⟨.initial, []⟩

/-- A fault at an event of the stream. -/
def faultAt (position : Nat) (event : Event) (fault : Fault) : Failure :=
  .malformed fault (some position) event.site

/-- Whether methods with a receiver of their own are recorded at once here. -/
def exempt (r : Run) : Bool :=
  r.stack.current.kind ≠ .singletonBody

/-- A definition in the innermost frame takes the level in force there. -/
def define (r : Run) (identifier : String) (site : Option Site) : Run :=
  { r with stack := r.stack.assign identifier r.stack.current.level site }

/-- The state after one event, which stands at `position`. -/
def step (r : Run) (position : Nat) (event : Event) : Except Failure Run :=
  match event with
  | .openScope kind name _ =>
    match r.stack.push kind name with
    | .ok stack => .ok { r with stack }
    | .error fault => .error (faultAt position event fault)
  | .closeScope _ =>
    match r.stack.pop with
    | .ok (frame, stack) => .ok ⟨stack, r.records ++ frame.records⟩
    | .error fault => .error (faultAt position event fault)
  | .bare level _ => .ok { r with stack := r.stack.setDefault level }
  | .targeted level targets _ => .ok { r with stack := r.stack.assignAll targets level }
  | .method identifier site => .ok (r.define identifier site)
  | .singletonMethod identifier site =>
    if r.exempt then
      match (Emission.atOnce identifier site r.stack.current.owner).records with
      | .ok records => .ok { r with records := r.records ++ records }
      | .error failure => .error failure
    else
      .ok (r.define identifier site)

/-- The state after one item of a stream. -/
def apply (r : Run) (position : Nat) : Item → Except Failure Run
  | .event event => r.step position event
  | .alien => .error .notAnEvent

/-- The state after a list of items, the first of which stands at `position`. -/
def applyAll (r : Run) (position : Nat) : List Item → Except Failure Run
  | [] => .ok r
  | item :: rest =>
    match r.apply position item with
    | .ok r' => r'.applyAll (position + 1) rest
    | .error failure => .error failure

/-- The records once the frame of the file closes too. -/
def finish (r : Run) : Except Fault (List MethodRecord) :=
  match r.stack.finish with
  | .ok frame => .ok (r.records ++ frame.records)
  | .error fault => .error fault

/-- The records of a whole stream. A scope left open is reported at the position after
    the last item. -/
def resolve (items : List Item) : Except Failure (List MethodRecord) :=
  match initial.applyAll 0 items with
  | .error failure => .error failure
  | .ok r =>
    match r.finish with
    | .ok records => .ok records
    | .error fault => .error (.malformed fault (some items.length) none)

/-- What one step of a trace shows: the state after it and the records it added, or
    the fault in the nesting that ends the trace. -/
inductive Trace where
  | stepped (stack : Stack) (added : List MethodRecord)
  | finished (added : List MethodRecord)
  | malformed (fault : Fault) (position : Option Nat) (site : Option Site)

/-- Every step of a resolution; the end of the stream is the last step. Bad nesting
    ends the trace, while any other failure leaves none. -/
def trace (r : Run) (position : Nat) : List Item → Except Failure (List Trace)
  | [] =>
    match r.stack.finish with
    | .ok frame => .ok [.finished frame.records]
    | .error fault => .ok [.malformed fault none none]
  | item :: rest =>
    match r.apply position item with
    | .ok r' =>
      (r'.trace (position + 1) rest).map
        (.stepped r'.stack (r'.records.drop r.records.length) :: ·)
    | .error (.malformed fault position site) => .ok [.malformed fault position site]
    | .error failure => .error failure

end Run

end MethodVisibility
