/-
  Line ends. A carriage return, with the line feed after it if there is one, becomes a
  line feed.
-/

namespace MethodVisibility.Text

/-- Characters with every line end written as one line feed. -/
def unifyChars : List Char → List Char
  | [] => []
  | '\r' :: '\n' :: rest => '\n' :: unifyChars rest
  | '\r' :: rest => '\n' :: unifyChars rest
  | c :: rest => c :: unifyChars rest

/-- A text with every line end written as one line feed. -/
def unifyLineEnds (s : String) : String :=
  String.ofList (unifyChars s.toList)

end MethodVisibility.Text
