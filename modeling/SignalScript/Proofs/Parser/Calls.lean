import SignalScript.Proofs.Parser.Safety

/-!
# Calls to a parser

Whoever uses a parser asks it for the next result and takes its findings away, in any order
and as often as it likes.  A run is the list of the answers to some calls, together with the
parser that they leave.
-/

namespace SignalScript

/-- What a parser can be asked for. -/
inductive Call where
  | next
  | takeDiagnostics
  deriving DecidableEq, Repr, Inhabited

/-- The answer to a call. -/
inductive Answer where
  | result (result : Option (Except ParseError Script))
  | findings (findings : List Diagnostic)
  deriving Inhabited, Repr

namespace Answer

/-- The script that is handed out. -/
def script? : Answer → Option Script
  | .result (some (.ok script)) => some script
  | _ => none

/-- The error that is handed out. -/
def error? : Answer → Option ParseError
  | .result (some (.error error)) => some error
  | _ => none

/-- The findings that are taken away. -/
def taken : Answer → List Diagnostic
  | .findings taken => taken
  | .result _ => []

end Answer

namespace Parser

/-- The answer to a call, and the parser after it. -/
def call (parser : Parser) : Call → Answer × Parser
  | .next => (.result parser.next.1, parser.next.2)
  | .takeDiagnostics => (.findings parser.diagnostics, parser.clearDiagnostics)

/-- The answers to calls, and the parser after them. -/
def run (parser : Parser) : List Call → List Answer × Parser
  | [] => ([], parser)
  | call :: calls =>
    let (answer, next) := parser.call call
    let (answers, last) := next.run calls
    (answer :: answers, last)

@[simp]
theorem run_nil (parser : Parser) : parser.run [] = ([], parser) := rfl

theorem run_cons (parser : Parser) (call : Call) (calls : List Call) :
    parser.run (call :: calls) =
      ((parser.call call).1 :: ((parser.call call).2.run calls).1,
        ((parser.call call).2.run calls).2) := rfl

end Parser

end SignalScript
