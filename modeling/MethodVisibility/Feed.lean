/-
  Feeds: streams with asides.

  A feed is what a resolution draws from: the items of a stream with the notes that
  come up between them. `Feed.items` is the stream; `Run.narrate` is all that is said
  while it is resolved, in order, up to a failure.
-/
import MethodVisibility.Note
import MethodVisibility.Resolve

namespace MethodVisibility

/-- One element of a feed. -/
inductive FeedElement where
  | item (item : Item)
  | aside (note : Note)
deriving DecidableEq, Repr

/-- A stream with asides. -/
abbrev Feed := List FeedElement

namespace Feed

/-- The stream of a feed. -/
def items (feed : Feed) : List Item :=
  feed.filterMap fun
    | .item item => some item
    | .aside _ => none

/-- A stream without asides. -/
def ofItems (items : List Item) : Feed :=
  items.map .item

@[simp] theorem items_ofItems (items : List Item) : (ofItems items).items = items := by
  induction items with
  | nil => rfl
  | cons item rest ih => exact congrArg (item :: ·) ih

end Feed

/-- What is said of several emissions, up to the first that fails. -/
def Emission.notesAll : List Emission → List Note
  | [] => []
  | .closing frame :: rest => frame.notes ++ notesAll rest
  | e :: rest =>
    match e.records with
    | .ok _ => notesAll rest
    | .error _ => []

namespace Run

/-- What is said of one item. -/
def notes (r : Run) : Item → List Note
  | .event (.openScope kind name _) => r.stack.notes (.push kind name)
  | .event (.closeScope _) =>
    r.stack.notes .pop
      ++ (match r.stack.pop with
          | .ok (frame, _) => frame.notes
          | .error _ => [])
  | _ => []

/-- What is said at the end of a stream of `count` items. -/
def finalNotes (r : Run) (count : Nat) : List Note :=
  match r.stack.finish with
  | .ok frame =>
    frame.notes ++ [.resolved (r.records ++ frame.records).length count]
  | .error _ => []

/-- All that is said while a feed is resolved from `position` on. -/
def narrate (r : Run) (position : Nat) : Feed → List Note
  | [] => r.finalNotes position
  | .aside note :: rest => note :: r.narrate position rest
  | .item item :: rest =>
    r.notes item
      ++ (match r.apply position item with
          | .ok r' => r'.narrate (position + 1) rest
          | .error _ => [])

/-- All that is said while a stream is traced: the same, save that nothing is summed up
    at the end. -/
def traceNotes (items : List Item) : List Note :=
  (initial.narrate 0 (Feed.ofItems items)).filter fun
    | .resolved _ _ => false
    | _ => true

end Run

end MethodVisibility
