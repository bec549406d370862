/-
  Stored resolutions: reading a resolution back from a dynamic value.
-/
import MethodVisibility.Record
import MethodVisibility.Resolve
import MethodVisibility.Validation

namespace MethodVisibility

/-- Reads a site. -/
def Site.ofValue (v : Value) : Checked Site :=
  match v.readObject .site with
  | .error issues => .error issues
  | .ok fields =>
    let lineStart := Value.required fields "line_start" Value.readInt
    let lineEnd := Value.optional fields "line_end" none (Value.readOption Value.readInt)
    let column := Value.optional fields "column" 0 Value.readInt
    (lineStart.both (lineEnd.both column)).map fun (first, last, col) => ⟨first, last, col⟩

/-- Reads a record. -/
def MethodRecord.ofValue (v : Value) : Checked MethodRecord :=
  match v.readObject .record with
  | .error issues => .error issues
  | .ok fields =>
    let identifier := Value.required fields "identifier" Value.readText
    let site := Value.required fields "site" Site.ofValue
    let level := Value.required fields "visibility" Value.readLevel
    let owner := Value.optional fields "owner" none (Value.readOption Value.readText)
    let singleton := Value.optional fields "singleton" false Value.readBool
    (identifier.both (site.both (level.both (owner.both singleton)))).map
      fun (i, s, l, o, g) => ⟨i, s, l, o, g⟩

/-- Reads a remark. -/
def Diagnostic.ofValue (v : Value) : Checked Diagnostic :=
  match v.readObject .diagnostic with
  | .error issues => .error issues
  | .ok fields =>
    let message := Value.required fields "message" Value.readText
    let site := Value.optional fields "site" none (Value.readOption Site.ofValue)
    (message.both site).map fun (m, s) => ⟨m, s⟩

/-- Reads a resolution. -/
def Resolution.ofValue (v : Value) : Checked Resolution :=
  match v.readObject .resolution with
  | .error issues => .error issues
  | .ok fields =>
    let records := Value.optional fields "records" [] (Value.readList MethodRecord.ofValue)
    let diagnostics :=
      Value.optional fields "diagnostics" [] (Value.readList Diagnostic.ofValue)
    let label := Value.optional fields "source" none (Value.readOption Value.readText)
    (records.both (diagnostics.both label)).map fun (r, d, l) => ⟨r, d, l⟩

/-- The issue with a record that has no site. -/
def siteIssue : Issue :=
  ⟨[.field "site"], .notObject .site⟩

end MethodVisibility
