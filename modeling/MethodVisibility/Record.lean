/-
  Records: the answer of a resolution.

  A frame that closes yields one record per defined name, in table order
  (`Frame.records`); a name that was only mentioned by directives yields none. The
  `Resolution` of a file is its records with the rejected directives and a label, and
  can be asked for a name or for a level.
-/
import MethodVisibility.Frame

namespace MethodVisibility

/-- The level of one method in the end. -/
structure MethodRecord where
  identifier : String
  site : Site
  level : Level
  owner : Option String
  singleton : Bool
deriving DecidableEq, Repr

/-- The record of a table entry, if the name was defined. -/
def Frame.record? (f : Frame) (row : String × Entry) : Option MethodRecord :=
  row.2.site.map fun site =>
    { identifier := row.1, site, level := row.2.level, owner := f.owner
      singleton := f.singleton }

/-- The records of a frame that closes. -/
def Frame.records (f : Frame) : List MethodRecord :=
  f.table.entries.filterMap f.record?

/-- The record of a method defined on a receiver of its own, which is always public. -/
def MethodRecord.ofSingleton (identifier : String) (site : Site) (owner : Option String) :
    MethodRecord :=
  { identifier, site, level := .pub, owner, singleton := true }

/-- A remark on a construct that was passed over. -/
structure Diagnostic where
  message : String
  site : Option Site
deriving DecidableEq, Repr

/-- The records and remarks of one file. -/
structure Resolution where
  records : List MethodRecord
  diagnostics : List Diagnostic
  label : Option String
deriving DecidableEq, Repr

/-- A question to a resolution. -/
inductive Query where
  /-- The records of a name, under one owner if one is given. -/
  | named (identifier : String) (owner : Option String)
  /-- The records of a level. -/
  | withLevel (level : Level)
deriving DecidableEq, Repr

/-- Whether a record belongs to the answer of a query. -/
def Query.holds (q : Query) (r : MethodRecord) : Bool :=
  match q with
  | .named identifier none => r.identifier == identifier
  | .named identifier (some owner) => r.identifier == identifier && r.owner == some owner
  | .withLevel level => r.level == level

/-- The answer to a query. -/
def Resolution.select (r : Resolution) (q : Query) : List MethodRecord :=
  r.records.filter q.holds

/-- The places of the answers to a query in the list of records. -/
def Resolution.places (r : Resolution) (q : Query) : List Nat :=
  (r.records.zipIdx.filter (q.holds ·.1)).map (·.2)

end MethodVisibility
