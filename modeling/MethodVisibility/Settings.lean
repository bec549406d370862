/-
  Settings of a resolution.

  The names of the calls whose block is a scope, the largest file that is read and the
  encoding of files. `Settings.ofValue` reads settings from a dynamic value: names are
  stripped first and checked after. `Settings.toValue` writes them.
-/
import MethodVisibility.Context
import MethodVisibility.Validation

namespace MethodVisibility

/-- What can be set. -/
structure Settings where
  /-- Calls without a receiver whose block has a default level of its own. -/
  scopeCalls : List String
  /-- Calls `Receiver.method` whose block is the body of a new type. -/
  constructorCalls : List String
  /-- The size in bytes of the largest file that is read. -/
  sizeLimit : Int
  encoding : String
deriving DecidableEq, Repr

namespace Settings

/-- The settings where nothing is set. -/
def standard : Settings :=
  { scopeCalls := ["concerning", "class_methods"]
    constructorCalls := ["Class.new", "Module.new", "Struct.new", "Data.define"]
    sizeLimit := 10 * 1024 * 1024
    encoding := "utf-8" }

/-- Whether a text can be the name of a call without a receiver. -/
def isScopeCall (name : String) : Bool :=
  name ≠ "" && !name.toList.contains '.'

/-- Whether a text has something before and something after its last point. -/
def isConstructorCall (name : String) : Bool :=
  match name.toList.reverse.takeWhile (· ≠ '.'), name.toList.reverse.dropWhile (· ≠ '.') with
  | _ :: _, _ :: _ :: _ => true
  | _, _ => false

/-- Strips names and refuses the first one that is not as it should be. -/
def checkNames (good : String → Bool) (problem : String → Problem) (names : List String) :
    Checked (List String) :=
  let stripped := names.map Text.strip
  match stripped.find? (!good ·) with
  | some name => .fail (problem name)
  | none => .ok stripped

/-- Reads a list of names. -/
def readNames (good : String → Bool) (problem : String → Problem) (v : Value) :
    Checked (List String) :=
  match v.readList Value.readText with
  | .ok names => checkNames good problem names
  | .error issues => .error issues

/-- Reads a positive integer. -/
def readPositive (v : Value) : Checked Int :=
  match v.readInt with
  | .ok n => if 0 < n then .ok n else .fail .notPositive
  | .error issues => .error issues

/-- Reads settings; what is not set is standard. -/
def ofValue (v : Value) : Checked Settings :=
  match v.readObject .settings with
  | .error issues => .error issues
  | .ok fields =>
    let scopeCalls := Value.optional fields "scope_block_calls" standard.scopeCalls
      (readNames isScopeCall .badScopeCall)
    let constructorCalls := Value.optional fields "type_constructor_calls"
      standard.constructorCalls (readNames isConstructorCall .badConstructorCall)
    let sizeLimit := Value.optional fields "max_file_size" standard.sizeLimit readPositive
    let encoding := Value.optional fields "encoding" standard.encoding Value.readText
    (scopeCalls.both (constructorCalls.both (sizeLimit.both encoding))).map
      fun (scopes, constructors, limit, enc) => ⟨scopes, constructors, limit, enc⟩

/-- Writes settings as a value. -/
def toValue (s : Settings) : Value :=
  .object
    [("scope_block_calls", .list (s.scopeCalls.map .text)),
     ("type_constructor_calls", .list (s.constructorCalls.map .text)),
     ("max_file_size", .int s.sizeLimit),
     ("encoding", .text s.encoding)]

/-- The text for settings that cannot be read. -/
def refusal (issues : List Issue) : String :=
  String.join ["Invalid visibility resolver configuration: ", Issue.summary .settings issues]

/-- What a walk over a text looks up under these settings. -/
def context (s : Settings) (text : String) : Context :=
  ⟨.ofText text, s.scopeCalls, s.constructorCalls⟩

end Settings

end MethodVisibility
