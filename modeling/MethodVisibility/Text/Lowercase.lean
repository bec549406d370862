/-
  Lower case of texts.

  Each character goes to its lower case; one of them goes to two characters. The
  capital sigma depends on its place: after a letter, and with no letter following, it
  is a final sigma, where characters such as points and accents are looked past.
-/
import MethodVisibility.Text.Letters
import MethodVisibility.Text.Printable

namespace MethodVisibility.Text

/-- The lower case of a character by itself. -/
def lowerChar (c : Char) : List Char :=
  if c = '\u0130' then ['i', '\u0307']
  else
    match lowerRuns.find? fun (first, last, step, _) =>
      first ≤ c.toNat && c.toNat ≤ last && (c.toNat - first) % step = 0 with
    | some (_, _, _, distance) => [Char.ofNat (c.toNat + distance).toNat]
    | none => [c]

/-- Whether the first character that is not looked past is a letter with case. -/
def meetsLetter (cs : List Char) : Bool :=
  match cs.find? fun c => !inRanges ignorableRanges c.toNat with
  | some c => inRanges casedRanges c.toNat
  | none => false

/-- The lower case of the characters that follow `before`, which is given from its end
    backwards. -/
def lowerAfter (before : List Char) : List Char → List Char
  | [] => []
  | c :: rest =>
    (if c = 'Σ' then
      [if meetsLetter before && !meetsLetter rest then 'ς' else 'σ']
    else lowerChar c)
      ++ lowerAfter (c :: before) rest

/-- The lower case of a text. -/
def lower (s : String) : String :=
  String.ofList (lowerAfter [] s.toList)

end MethodVisibility.Text
