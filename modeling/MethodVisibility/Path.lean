/-
  Paths of files.

  A path is a root and the parts after it. Empty parts and single points mean nothing
  and are dropped; double points stay. Two slashes at the start are a root of their
  own, any other number of them is the same as one.

  The extension of a path is what follows the last point of its last part, the point
  included, if something stands before the point and after it.
-/
import MethodVisibility.Text.Lowercase

namespace MethodVisibility

/-- A root, empty for a relative path, and the parts after it. -/
structure Path where
  root : String
  parts : List String
deriving DecidableEq, Repr

namespace Path

/-- The parts of a list of characters between slashes. -/
def splitSlash (cs : List Char) : List (List Char) :=
  cs.splitOn '/'

/-- The root that a number of slashes at the start stands for. -/
def rootOf : Nat → String
  | 0 => ""
  | 2 => "//"
  | _ => "/"

/-- Reads a path. -/
def ofText (s : String) : Path :=
  { root := rootOf (s.toList.takeWhile (· = '/')).length
    parts := ((splitSlash s.toList).map String.ofList).filter fun p => p ≠ "" && p ≠ "." }

/-- Writes a path. -/
def text (p : Path) : String :=
  if p.root = "" && p.parts = [] then "."
  else String.join [p.root, String.intercalate "/" p.parts]

/-- The last part of a path, empty if it has none. -/
def name (p : Path) : String :=
  p.parts.getLast?.getD ""

/-- The extension of a name, with its point; empty if there is none. -/
def extensionOf (name : List Char) : List Char :=
  match name.reverse.takeWhile (· ≠ '.'), name.reverse.dropWhile (· ≠ '.') with
  | c :: cs, _ :: _ :: _ => '.' :: (c :: cs).reverse
  | _, _ => []

/-- The extension of a path. -/
def extension (p : Path) : String :=
  String.ofList (extensionOf p.name.toList)

/-- The extensions of files that are read, in lower case. -/
def supportedExtensions : List String :=
  [".rb", ".rbw", ".rake", ".ru", ".gemspec", ".builder", ".jbuilder"]

/-- The extension of a path in lower case. -/
def extensionLower (p : Path) : String :=
  Text.lower p.extension

/-- Whether a path has an extension of files that are read. -/
@[irreducible] def isSupported (p : Path) : Bool :=
  p.extensionLower ∈ supportedExtensions

/-- The name of the language of the files that are read. -/
def language : String := "ruby"

/-- The text for a path whose extension is not supported. -/
def unsupportedText (p : Path) : String :=
  String.join ["Cannot detect language for file extension: ", p.extensionLower]

end Path

end MethodVisibility
