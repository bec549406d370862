/-
  Numerals: integers as they are spelled in texts.

  A plain numeral is an optional minus and digits without a zero in front. Anything
  else is cleaned and read once more: white space at the ends, one sign, zeros in
  front, a point with nothing but zeros behind it, and single underscores are taken
  away. Zeros in front may have underscores among them, and what follows them may have
  a minus of its own.

  There is a bound on the number of digits. A plain numeral over the bound is refused
  as too long; one that shows itself only after cleaning is refused as no numeral.
-/
import MethodVisibility.Text.Blank

namespace MethodVisibility.Text

/-- Why a text is not read as an integer. -/
inductive NumeralError where
  | noNumeral
  | tooLong
deriving DecidableEq, Repr

/-- The most digits of an integer that is read. -/
def digitLimit : Nat := 4300

/-- The number that digits stand for. -/
def digitsValue (digits : List Char) : Nat :=
  digits.foldl (fun n c => n * 10 + (c.toNat - '0'.toNat)) 0

/-- Reads digits that are a numeral by themselves. -/
def readDigits (cs : List Char) : Except NumeralError Nat :=
  match cs.takeWhile Char.isDigit with
  | [] => .error .noNumeral
  | first :: more =>
    if first = '0' then (if cs = ['0'] then .ok 0 else .error .noNumeral)
    else if digitLimit ≤ more.length then .error .tooLong
    else if cs.length = more.length + 1 then .ok (digitsValue (first :: more))
    else .error .noNumeral

/-- Reads a plain numeral. -/
def readPlain (cs : List Char) : Except NumeralError Int :=
  match cs with
  | '-' :: rest => (readDigits rest).map fun n => -(n : Int)
  | _ => (readDigits cs).map Int.ofNat

/-! ## Cleaning -/

/-- Whether the number proper starts with a character. -/
def startsNumber (c : Char) : Bool :=
  c = '-' || (c.isDigit && c ≠ '0')

/-- Drops further zeros and underscores behind a zero in front, `last` being the one
    before. At least one character is left: where the zeros end the numeral or a point
    follows them, the last one stays. -/
def skipZeros (last : Char) : List Char → Option (List Char)
  | [] => some [last]
  | c :: rest =>
    if c = '0' || c = '_' then skipZeros c rest
    else if startsNumber c then some (c :: rest)
    else if c = '.' then some (last :: c :: rest)
    else none

/-- Drops the zeros in front of a number. -/
def dropLeadingZeros : List Char → Option (List Char)
  | [] => none
  | c :: rest =>
    if c = '0' then skipZeros c rest
    else if startsNumber c then some (c :: rest)
    else none

/-- Drops a point with one zero or more, and nothing else, behind it. -/
def dropDecimalZeros (cs : List Char) : List Char :=
  match cs.dropWhile (· ≠ '.') with
  | _ :: zero :: zeros =>
    if (zero :: zeros).all (· = '0') then cs.takeWhile (· ≠ '.') else cs
  | _ => cs

/-- Whether underscores stand side by side. -/
def hasDoubleUnderscore : List Char → Bool
  | a :: b :: rest => (a = '_' && b = '_') || hasDoubleUnderscore (b :: rest)
  | _ => false

/-- Drops underscores that stand singly and at neither end. -/
def dropUnderscores (cs : List Char) : List Char :=
  if cs.head? = some '_' || cs.getLast? = some '_' || hasDoubleUnderscore cs then cs
  else cs.filter (· ≠ '_')

/-- Cleans what follows a sign. -/
def cleanMagnitude (cs : List Char) : Option (List Char) :=
  (dropLeadingZeros cs).map fun ds => dropUnderscores (dropDecimalZeros ds)

/-- Cleans a numeral. -/
def cleanNumeral (cs : List Char) : Option (List Char) :=
  match trimBoth isWhiteSpace cs with
  | '+' :: '-' :: _ => none
  | '+' :: rest => cleanMagnitude rest
  | '-' :: rest => (cleanMagnitude rest).map ('-' :: ·)
  | rest => cleanMagnitude rest

/-- Reads a numeral, at need after cleaning. -/
def readNumeral (cs : List Char) : Except NumeralError Int :=
  match readPlain cs with
  | .ok n => .ok n
  | .error .tooLong => .error .tooLong
  | .error .noNumeral =>
    match (cleanNumeral cs).map readPlain with
    | some (.ok n) => .ok n
    | _ => .error .noNumeral

end MethodVisibility.Text
