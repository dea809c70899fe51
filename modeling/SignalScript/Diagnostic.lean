import SignalScript.Json

/-!
# Diagnostics

A diagnostic is a finding about a line of a script, or about a setting (then
its line is 0).  Findings are put in order by severity, then by place.
-/

namespace SignalScript

inductive Severity where
  | error
  | warning
  | info
  deriving DecidableEq, Repr, Inhabited

namespace Severity

def name : Severity → String
  | .error => "error"
  | .warning => "warning"
  | .info => "info"

/-- The severity with a name. -/
def ofName? (name : String) : Option Severity :=
  match name with
  | "error" => some .error
  | "warning" => some .warning
  | "info" => some .info
  | _ => none

/-- Errors come first. -/
def rank : Severity → Nat
  | .error => 0
  | .warning => 1
  | .info => 2

@[simp]
theorem ofName?_name (severity : Severity) : ofName? severity.name = some severity := by
  cases severity <;> rfl

end Severity

structure Diagnostic where
  /-- What was found, as a dotted name. -/
  kind : String
  severity : Severity
  line : Nat
  message : String
  /-- The name of the thing that the finding is about. -/
  reference : Option String := none
  /-- Data that goes with the message. -/
  related : Option Json := none
  deriving Inhabited, Repr

namespace Diagnostic

def warning (kind : String) (line : Nat) (message : String) : Diagnostic :=
  { kind, severity := .warning, line, message }

def error (kind : String) (line : Nat) (message : String) : Diagnostic :=
  { kind, severity := .error, line, message }

def withReference (diagnostic : Diagnostic) (reference : String) : Diagnostic :=
  { diagnostic with reference := some reference }

def withRelated (diagnostic : Diagnostic) (related : Json) : Diagnostic :=
  { diagnostic with related := some related }

def isError (diagnostic : Diagnostic) : Bool :=
  diagnostic.severity == .error

/-- The finding in one line of text. -/
def display (diagnostic : Diagnostic) : String :=
  diagnostic.severity.name ++ " [" ++ diagnostic.kind ++ "] line " ++
    toString diagnostic.line ++ ": " ++ diagnostic.message

/-- Compares findings by severity, line, kind and message.  Texts are compared
character by character. -/
def order (left right : Diagnostic) : Ordering :=
  (compare left.severity.rank right.severity.rank).then <|
    (compare left.line right.line).then <|
      (compare left.kind right.kind).then <|
        compare left.message right.message

/-- Whether a finding may stand before another one. -/
def precedes (left right : Diagnostic) : Bool :=
  (order left right).isLE

/-- Findings in order.  Those that compare equal stay as they were. -/
def sort (diagnostics : List Diagnostic) : List Diagnostic :=
  diagnostics.mergeSort precedes

end Diagnostic

end SignalScript
