/-
  Tables of method names.

  A table lists the names written in one scope, each with its latest level and the
  site of its first definition. The order of the list is the order of first
  definitions: a name that a directive mentions before its definition waits in the
  table without a site and goes to the end when the definition comes.

  Every operation is stated through `Table.get?` and `Table.names`.
-/
import MethodVisibility.Level
import MethodVisibility.Site

namespace MethodVisibility

/-- Latest level of a name and the site of its first definition, if there was one. -/
structure Entry where
  level : Level
  site : Option Site
deriving DecidableEq, Repr

/-- The names written in a scope, in report order. -/
structure Table where
  entries : List (String × Entry)
deriving DecidableEq, Repr

namespace Table

/-- The table of a scope that has just opened. -/
def empty : Table := ⟨[]⟩

/-- The entry of a name. -/
def get? (t : Table) (name : String) : Option Entry :=
  t.entries.lookup name

/-- The names of a table in report order. -/
def names (t : Table) : List String :=
  t.entries.map (·.1)

/-- How many names a table has. -/
def size (t : Table) : Nat :=
  t.entries.length

/-- Puts a new name at the end. -/
def append (t : Table) (name : String) (entry : Entry) : Table :=
  ⟨t.entries ++ [(name, entry)]⟩

/-- Changes the entry of a name where it stands. -/
def update (t : Table) (name : String) (change : Entry → Entry) : Table :=
  ⟨t.entries.map fun p => if p.1 = name then (p.1, change p.2) else p⟩

/-- Drops a name. -/
def erase (t : Table) (name : String) : Table :=
  ⟨t.entries.filter (·.1 ≠ name)⟩

/-- Writes a level for a name, at the site of a definition or at none. A known name
    keeps its place and the site of its first definition; the first definition of a
    name that waits without a site puts it at the end. -/
def assign (t : Table) (name : String) (level : Level) (site : Option Site) : Table :=
  match t.get? name with
  | none => t.append name ⟨level, site⟩
  | some old =>
    if old.site.isNone && site.isSome then
      (t.erase name).append name ⟨level, site⟩
    else
      t.update name ({ · with level := level })

/-- The table with the given rows; of two rows for one name the later one counts, in
    the place of the first. -/
def ofRows (rows : List (String × Entry)) : Table :=
  rows.foldl
    (fun t row =>
      match t.get? row.1 with
      | none => t.append row.1 row.2
      | some _ => t.update row.1 fun _ => row.2)
    empty

end Table

end MethodVisibility
