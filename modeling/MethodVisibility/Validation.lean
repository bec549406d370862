/-
  Checking dynamic values.

  A reader turns a value into one of a known type or tells what is wrong and where.
  Checks do not stop at the first issue: all fields of an object and all items of a
  list are read, and their issues are listed in order.

  Readers are lenient about spelling. An integer may be a truth value, a number
  without fraction or a text that spells one; a truth value may be a number or one of
  twelve words.
-/
import MethodVisibility.Level
import MethodVisibility.Text.Numeral
import MethodVisibility.Text.Quoted
import MethodVisibility.Value

namespace MethodVisibility

/-- The objects that are read from values. -/
inductive Shape where
  | settings
  | resolution
  | record
  | site
  | diagnostic
deriving DecidableEq, Repr

/-- The name of a kind of object in messages. -/
def Shape.word : Shape → String
  | .settings => "ResolverConfig"
  | .resolution => "ResolutionResult"
  | .record => "ResolvedMethodModel"
  | .site => "SourceSite"
  | .diagnostic => "ClassificationDiagnosticModel"

/-- What is wrong with a value. -/
inductive Problem where
  | missing
  | notObject (shape : Shape)
  | notText
  | notList
  | notInteger
  | unreadableInteger
  | oversizeInteger
  | fraction
  | notFinite
  | notBoolean
  | unreadableBoolean
  | notLevel
  | notPositive
  | badScopeCall (name : String)
  | badConstructorCall (name : String)
deriving DecidableEq, Repr

namespace Problem

/-- The code word of a problem. -/
def code : Problem → String
  | .missing => "missing"
  | .notObject _ => "model_type"
  | .notText => "string_type"
  | .notList => "list_type"
  | .notInteger => "int_type"
  | .unreadableInteger => "int_parsing"
  | .oversizeInteger => "int_parsing_size"
  | .fraction => "int_from_float"
  | .notFinite => "finite_number"
  | .notBoolean => "bool_type"
  | .unreadableBoolean => "bool_parsing"
  | .notLevel => "enum"
  | .notPositive => "greater_than"
  | .badScopeCall _ | .badConstructorCall _ => "value_error"

/-- The text of a problem. -/
def message : Problem → String
  | .missing => "Field required"
  | .notObject shape =>
    String.join ["Input should be a valid dictionary or instance of ", shape.word]
  | .notText => "Input should be a valid string"
  | .notList => "Input should be a valid list"
  | .notInteger => "Input should be a valid integer"
  | .unreadableInteger =>
    "Input should be a valid integer, unable to parse string as an integer"
  | .oversizeInteger => "Unable to parse input string as an integer, exceeded maximum size"
  | .fraction => "Input should be a valid integer, got a number with a fractional part"
  | .notFinite => "Input should be a finite number"
  | .notBoolean => "Input should be a valid boolean"
  | .unreadableBoolean => "Input should be a valid boolean, unable to interpret input"
  | .notLevel => "Input should be 'public', 'private' or 'protected'"
  | .notPositive => "Input should be greater than 0"
  | .badScopeCall name =>
    String.join ["Value error, Invalid scope block call name: ", Text.quoted name]
  | .badConstructorCall name =>
    String.join
      ["Value error, Type constructor must look like 'Receiver.method': ", Text.quoted name]

end Problem

/-- A step from a value to one of its parts. -/
inductive Part where
  | field (name : String)
  | index (place : Nat)
deriving DecidableEq, Repr

/-- A problem and the way to it. -/
structure Issue where
  path : List Part
  problem : Problem
deriving DecidableEq, Repr

/-- The line that sums up the issues of an object. -/
def Issue.summary (shape : Shape) (issues : List Issue) : String :=
  String.join [toString issues.length, " validation error",
    if issues.length = 1 then "" else "s", " for ", shape.word]

/-- A value of a known type, or all that is wrong. -/
abbrev Checked (α : Type) := Except (List Issue) α

namespace Checked

/-- One problem, right here. -/
def fail {α : Type} (problem : Problem) : Checked α :=
  .error [⟨[], problem⟩]

/-- Puts a step in front of the way to each issue. -/
def under {α : Type} (part : Part) (c : Checked α) : Checked α :=
  c.mapError fun issues => issues.map fun i => ⟨part :: i.path, i.problem⟩

/-- Both of two checks; if either fails, the issues of both. -/
def both {α β : Type} : Checked α → Checked β → Checked (α × β)
  | .ok a, .ok b => .ok (a, b)
  | .ok _, .error issues => .error issues
  | .error issues, .ok _ => .error issues
  | .error issues, .error more => .error (issues ++ more)

/-- All of several checks; if any fails, the issues of all. -/
def all {α : Type} : List (Checked α) → Checked (List α)
  | [] => .ok []
  | c :: rest => (both c (all rest)).map fun (a, as) => a :: as

end Checked

/-! ## Spellings -/

/-- The words for a truth value, in lower case. -/
def readBoolean (cs : List Char) : Option Bool :=
  let word := String.ofList (cs.map Char.toLower)
  if word ∈ ["0", "off", "f", "false", "n", "no"] then some false
  else if word ∈ ["1", "on", "t", "true", "y", "yes"] then some true
  else none

/-! ## Readers -/

namespace Value

/-- Reads a text. -/
def readText : Value → Checked String
  | .text s => .ok s
  | _ => .fail .notText

/-- The first integer beyond a machine word. -/
def wordBound : Int := Int.pow 2 63

/-- An integer that fits a machine word. -/
def fitting (n : Int) : Except Problem Int :=
  if n ≤ -wordBound || wordBound ≤ n then .error .oversizeInteger else .ok n

/-- The integer that a floating-point number is, if it has no fraction and fits a
    machine word. -/
def wholeBinary (mantissa exponent : Int) : Except Problem Int :=
  if 0 ≤ exponent then fitting (mantissa * Int.pow 2 exponent.toNat)
  else
    let unit := Int.pow 2 (-exponent).toNat
    if mantissa % unit ≠ 0 then .error .fraction else fitting (mantissa / unit)

/-- The problem with a text that is not read as an integer. -/
def numeralProblem : Text.NumeralError → Problem
  | .noNumeral => .unreadableInteger
  | .tooLong => .oversizeInteger

/-- Reads an integer. -/
def readInt : Value → Checked Int
  | .int n => .ok n
  | .bool b => .ok (if b then 1 else 0)
  | .binary mantissa exponent =>
    match wholeBinary mantissa exponent with
    | .ok n => .ok n
    | .error problem => .fail problem
  | .nonFinite => .fail .notFinite
  | .text s =>
    match Text.readNumeral s.toList with
    | .ok n => .ok n
    | .error e => .fail (numeralProblem e)
  | _ => .fail .notInteger

/-- The truth value that zero and one stand for. -/
def boolOfInt (n : Int) : Checked Bool :=
  if n = 0 then .ok false else if n = 1 then .ok true else .fail .unreadableBoolean

/-- Reads a truth value. A number that is no machine word is not taken for one. -/
def readBool : Value → Checked Bool
  | .bool b => .ok b
  | .int n => if n < -wordBound || wordBound ≤ n then .fail .notBoolean else boolOfInt n
  | .binary mantissa exponent =>
    match wholeBinary mantissa exponent with
    | .ok n => boolOfInt n
    | .error _ => .fail .notBoolean
  | .text s =>
    match readBoolean s.toList with
    | some b => .ok b
    | none => .fail .unreadableBoolean
  | _ => .fail .notBoolean

/-- Reads a level by its keyword. -/
def readLevel : Value → Checked Level
  | .text s =>
    match Level.ofWord? s with
    | some level => .ok level
    | none => .fail .notLevel
  | _ => .fail .notLevel

/-- Reads a value that may be null. -/
def readOption {α : Type} (read : Value → Checked α) : Value → Checked (Option α)
  | .null => .ok none
  | v => (read v).map some

/-- Reads the items of a list, the first of which has the number `place`. -/
def readItems {α : Type} (read : Value → Checked α) (place : Nat) :
    List Value → List (Checked α)
  | [] => []
  | v :: rest => (read v).under (.index place) :: readItems read (place + 1) rest

/-- Reads a list. -/
def readList {α : Type} (read : Value → Checked α) : Value → Checked (List α)
  | .list items => .all (readItems read 0 items)
  | _ => .fail .notList

/-- Reads the fields of an object. -/
def readObject (shape : Shape) : Value → Checked (List (String × Value))
  | .object fields => .ok fields
  | _ => .fail (.notObject shape)

/-- Reads a field that must be there. -/
def required {α : Type} (fields : List (String × Value)) (name : String)
    (read : Value → Checked α) : Checked α :=
  match fields.lookup name with
  | some v => (read v).under (.field name)
  | none => Checked.under (.field name) (.fail .missing)

/-- Reads a field that has a value if it is not there. -/
def optional {α : Type} (fields : List (String × Value)) (name : String) (absent : α)
    (read : Value → Checked α) : Checked α :=
  match fields.lookup name with
  | some v => (read v).under (.field name)
  | none => .ok absent

end Value

end MethodVisibility
