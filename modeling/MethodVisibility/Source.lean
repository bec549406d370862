/-
  Source texts as octets.

  Spans of a syntax tree count octets of the UTF-8 form of a text. The text of a node
  is the text of its octets, wherever its span begins and ends: it is clipped to the
  source, empty if it ends before it starts, and a character that is cut shows as
  replacement characters.
-/
import MethodVisibility.Text.Utf8
import MethodVisibility.Tree.Node

namespace MethodVisibility

/-- A source text in its UTF-8 form. -/
structure Source where
  octets : Array UInt8

namespace Source

/-- The octets of a text. -/
def ofText (text : String) : Source :=
  ⟨(Utf8.encode text).toArray⟩

/-- The text between two offsets. -/
def slice (s : Source) (start stop : Nat) : String :=
  Utf8.decodeLossy (s.octets.extract start stop).toList

/-- The text of a node. -/
def text (s : Source) (n : Node) : String :=
  s.slice n.label.span.startByte n.label.span.endByte

end Source

end MethodVisibility
