/-
  Files, directories and links.

  A file system says what stands at each place, and at which place the program works. A
  place is named by the parts that lead to it from the root. `FileSystem.find` follows a
  path part by part, as the system does: a path with a root from there, any other one from
  the working directory. Two points lead up, from the root back to itself; a link is
  followed wherever it stands, up to a limit. The first part that goes wrong decides the
  error.
-/
import MethodVisibility.Path
import MethodVisibility.Text.Quoted

namespace MethodVisibility

/-- A file with its octets, or a directory with its nominal size, and what may be done with
    it: it may be read, and if it is a directory, looked into. -/
inductive DiskEntry where
  | file (octets : List UInt8) (readable : Bool)
  | directory (size : Nat) (readable searchable : Bool)
deriving DecidableEq, Repr

/-- What stands at a place. -/
inductive Inode where
  | entry (e : DiskEntry)
  | link (target : Path)
deriving DecidableEq, Repr

/-- Why the system refuses a path. -/
inductive AccessError where
  | missing
  | denied
  | notDirectory
  | isDirectory
  | nameTooLong
  | tooManyLinks
deriving DecidableEq, Repr

/-- The number of a refusal by the system. -/
def AccessError.number : AccessError → Nat
  | .missing => 2
  | .denied => 13
  | .notDirectory => 20
  | .isDirectory => 21
  | .nameTooLong => 36
  | .tooManyLinks => 40

/-- The words for a refusal by the system. -/
def AccessError.words : AccessError → String
  | .missing => "No such file or directory"
  | .denied => "Permission denied"
  | .notDirectory => "Not a directory"
  | .isDirectory => "Is a directory"
  | .nameTooLong => "File name too long"
  | .tooManyLinks => "Too many levels of symbolic links"

/-- The text of a refusal by the system. -/
def AccessError.message (e : AccessError) (path : String) : String :=
  String.join ["[Errno ", toString e.number, "] ", e.words, ": ", Text.quoted path]

/-- The place from which a path is followed that is read at `place`. -/
def Path.origin (p : Path) (place : List String) : List String :=
  if p.root = "" then place else []

/-- What stands at each place, and the place of the working directory. -/
structure FileSystem where
  inode? : List String → Option Inode
  workPlace : List String

namespace FileSystem

/-- The longest part of a path, in octets. -/
def partLimit : Nat := 255

/-- The length from which on a path is too long, in octets. -/
def pathLimit : Nat := 4096

/-- The number of links that are followed on one path. -/
def linkLimit : Nat := 40

/-- Follows parts from a place; `jump` goes on where a link leads. -/
def followWith (fs : FileSystem)
    (jump : List String → List String → Except AccessError DiskEntry) :
    List String → List String → Except AccessError DiskEntry
  | place, [] =>
    match fs.inode? place with
    | none => .error .missing
    | some (.link target) => jump (target.origin place.dropLast) target.parts
    | some (.entry e) => .ok e
  | place, part :: rest =>
    match fs.inode? place with
    | none => .error .missing
    | some (.link target) => jump (target.origin place.dropLast) (target.parts ++ part :: rest)
    | some (.entry (.file _ _)) => .error .notDirectory
    | some (.entry (.directory _ _ searchable)) =>
      if !searchable then .error .denied
      else if part = ".." then followWith fs jump place.dropLast rest
      else if partLimit < part.utf8ByteSize then .error .nameTooLong
      else followWith fs jump (place ++ [part]) rest

/-- Follows parts from a place, through so many links at most. -/
def follow (fs : FileSystem) : Nat → List String → List String → Except AccessError DiskEntry
  | 0 => fs.followWith fun _ _ => .error .tooManyLinks
  | links + 1 => fs.followWith (fs.follow links)

/-- What a path leads to. -/
def find (fs : FileSystem) (path : Path) : Except AccessError DiskEntry :=
  if pathLimit ≤ path.text.utf8ByteSize then .error .nameTooLong
  else fs.follow linkLimit (path.origin fs.workPlace) path.parts

end FileSystem

end MethodVisibility
