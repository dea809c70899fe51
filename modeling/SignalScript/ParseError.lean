import SignalScript.Tree.Node

/-!
# Parse errors

The reasons why a script is refused, each with the line it was noticed on.
-/

namespace SignalScript

/-- What an open construct needs next. -/
inductive Wanted where
  | bracketOpen
  | bracketClose
  | blockClose
  | statementEnd
  | statement
  deriving DecidableEq, Repr, Inhabited

/-- How it is named in a message. -/
def Wanted.symbol : Wanted → String
  | .bracketOpen => "("
  | .bracketClose => ")"
  | .blockClose => "\x7d"
  | .statementEnd => ";"
  | .statement => "statement"

/-- A token that closes something. -/
inductive Closer where
  | bracket
  | block
  | statement
  deriving DecidableEq, Repr, Inhabited

def Closer.symbol : Closer → String
  | .bracket => ")"
  | .block => "\x7d"
  | .statement => ";"

/-- Something that cannot stand inside a statement. -/
inductive Construct where
  | block
  | conditional
  deriving DecidableEq, Repr, Inhabited

def Construct.symbol : Construct → String
  | .block => "\x7b"
  | .conditional => "IF"

inductive ParseError where
  /-- A closing token that does not fit what is open. -/
  | mismatchedClose (expected : Wanted) (found : Closer) (line : Nat)
  /-- A closing token when nothing is open. -/
  | unmatchedClose (found : Closer) (line : Nat)
  /-- The script ended with a node of a kind still open. -/
  | unclosedScript (script : String) (opened : NodeKind) (line : Nat)
  | elseWithoutIf (line : Nat)
  /-- Something other than a bracket follows an `IF`. -/
  | missingCondition (line : Nat)
  | misplacedBlock (construct : Construct) (line : Nat)
  /-- The tree being built has no place for something; this does not arise from
  any text. -/
  | unexpected (found : String) (line : Nat)
  | nestingTooDeep (depth : Nat) (line : Nat)
  /-- No node waits for the alternate that was completed; this does not arise
  from any text. -/
  | missingAlternateReturn (line : Nat)
  | invalidOperator (text : String) (line : Nat)
  deriving DecidableEq, Repr, Inhabited

namespace ParseError

def line : ParseError → Nat
  | .mismatchedClose _ _ line
  | .unmatchedClose _ line
  | .unclosedScript _ _ line
  | .elseWithoutIf line
  | .missingCondition line
  | .misplacedBlock _ line
  | .unexpected _ line
  | .nestingTooDeep _ line
  | .missingAlternateReturn line
  | .invalidOperator _ line => line

def message : ParseError → String
  | .mismatchedClose expected found line =>
    "matching element not found at line " ++ toString line ++ ": expected `" ++
      expected.symbol ++ "`, got `" ++ found.symbol ++ "`"
  | .unmatchedClose found line =>
    "`" ++ found.symbol ++ "` without an opening element at line " ++ toString line
  | .unclosedScript script opened line =>
    "script `" ++ script ++ "` ends at line " ++ toString line ++ " with an open " ++
      opened.label
  | .elseWithoutIf line => "ELSE without a matching IF at line " ++ toString line
  | .missingCondition line => "IF without a condition at line " ++ toString line
  | .misplacedBlock construct line =>
    "`" ++ construct.symbol ++ "` is not allowed inside a statement at line " ++ toString line
  | .unexpected found line => "unexpected " ++ found ++ " at line " ++ toString line
  | .nestingTooDeep depth line =>
    "nesting depth " ++ toString depth ++ " exceeds the configured maximum at line " ++
      toString line
  | .missingAlternateReturn line =>
    "no alternate attachment point found at line " ++ toString line
  | .invalidOperator text line =>
    "invalid operator `" ++ text ++ "` at line " ++ toString line

end ParseError

end SignalScript
