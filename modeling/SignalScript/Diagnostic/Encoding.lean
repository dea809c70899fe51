import SignalScript.Diagnostic

/-!
# Diagnostics as JSON

A finding is written as an object that leaves out what is not set.  It is read
from an object, in which unknown keys are passed over, or from a list of all its
parts in order.
-/

namespace SignalScript

namespace Severity

/-- A severity is written as its name. -/
def toJson (severity : Severity) : Json := .string severity.name

/-- Reads a severity: its name, or an object with the name as its only key and
no value. -/
def ofJson? : Json → Option Severity
  | .string name => ofName? name
  | .object [(name, .null)] => ofName? name
  | _ => none

@[simp]
theorem ofJson?_toJson (severity : Severity) : ofJson? severity.toJson = some severity := by
  simp [toJson, ofJson?]

end Severity

namespace Diagnostic

def toJson (diagnostic : Diagnostic) : Json :=
  .object <|
    [("kind", .string diagnostic.kind), ("severity", diagnostic.severity.toJson),
      ("line", .nat diagnostic.line), ("message", .string diagnostic.message)] ++
    (diagnostic.reference.map fun reference => ("reference", Json.string reference)).toList ++
    (diagnostic.related.map fun related => ("related", related)).toList

/-- Reads a reference; null is none. -/
def referenceOfJson? : Json → Option (Option String)
  | .null => some none
  | value => value.string?.map some

/-- Reads related data; null is none. -/
def relatedOfJson : Json → Option Json
  | .null => none
  | value => some value

/-- Reads a finding from its parts. -/
def ofParts? (kind severity line message reference related : Json) : Option Diagnostic := do
  let kind ← kind.string?
  let severity ← Severity.ofJson? severity
  let line ← line.nat?
  let message ← message.string?
  let reference ← referenceOfJson? reference
  return { kind, severity, line, message, reference, related := relatedOfJson related }

def ofJson? : Json → Option Diagnostic
  | .object fields => do
    let kind ← Json.field? fields "kind"
    let severity ← Json.field? fields "severity"
    let line ← Json.field? fields "line"
    let message ← Json.field? fields "message"
    let reference := Json.ofOption (Json.field? fields "reference")
    let related := Json.ofOption (Json.field? fields "related")
    ofParts? kind severity line message reference related
  | .array [kind, severity, line, message, reference, related] =>
    ofParts? kind severity line message reference related
  | _ => none

end Diagnostic

end SignalScript
