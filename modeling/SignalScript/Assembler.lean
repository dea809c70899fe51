import SignalScript.Builder
import SignalScript.Options
import SignalScript.Token

/-!
# Assembling scripts from tokens

An assembler takes tokens one by one.  Outside a script all but `SCRIPT` and
`REM` is skipped: `SCRIPT` opens a script, and `REM` begins or ends a remark,
which the next `SCRIPT` also ends instead of opening a script.

A script begins with its name: values and operators put together, up to the end
of the line or statement or to a bracket or brace.  After the name, `REM` and
`SCRIPT` end the script, and everything else is a step of its builder.
-/

namespace SignalScript

/-- What a token means inside a script after its name. -/
inductive Action where
  | skip
  | build (step : Builder.Step)
  /-- Ends the script and begins a remark. -/
  | remark
  /-- Ends the script and begins the next one. -/
  | nextScript
  deriving DecidableEq, Repr, Inhabited

namespace Action

/-- What a value means. -/
def ofValue (text : String) : Action :=
  match text with
  | "REM" => .remark
  | "SCRIPT" => .nextScript
  | "IF" => .build .openConditional
  | "ELSE" => .build .openAlternate
  | word => if word ∈ operatorWords then .build (.operator word) else .build (.value word)

def ofToken (token : Token) : Action :=
  match token.kind with
  | .value => ofValue token.text
  | .operator => .build (.operator token.text)
  | .separator | .tab | .comma | .lineEnd => .skip
  | .statementEnd => .build (.close .statement)
  | .bracketOpen => .build .openEnclosure
  | .bracketClose => .build (.close .bracket)
  | .blockOpen => .build .openBlock
  | .blockClose => .build (.close .block)

end Action

/-- The kind of the finding about an unknown operator. -/
def unknownOperatorKind : String := "sigscr.operator.unknown"

/-- The finding about an unknown operator. -/
def unknownOperatorFinding (text : String) (line : Nat) : Diagnostic :=
  (Diagnostic.warning unknownOperatorKind line
    ("invalid operator token " ++ text ++ " in line number " ++ toString line)).withRelated
      (.object [("operator", .string text)])

structure Assembler where
  strictOperators : Bool
  maxDepth : Option Nat
  /-- The script being read. -/
  builder : Option Builder := none
  /-- Whether a remark is open between scripts. -/
  remark : Bool := false
  diagnostics : List Diagnostic := []
  deriving Inhabited, Repr

namespace Assembler

/-- An assembler with the settings of a parser that has taken no token. -/
def ofOptions (options : Options) : Assembler :=
  { strictOperators := options.strictOperators, maxDepth := options.maxDepth }

/-- Opens a script on a line. -/
def openScript (assembler : Assembler) (line : Nat) : Assembler :=
  { assembler with builder := some (.start line assembler.maxDepth) }

/-- Takes a token outside a script. -/
def consumeOutside (assembler : Assembler) (token : Token) : Assembler :=
  if token.kind = .value then
    match token.text with
    | "REM" => { assembler with remark := !assembler.remark }
    | "SCRIPT" =>
      if assembler.remark then { assembler with remark := false }
      else assembler.openScript token.line
    | _ => assembler
  else
    assembler

/-- What a token does to a name being read: the builder after it, and whether
the token is still to be read as part of the script. -/
def consumeName (builder : Builder) (token : Token) : Builder × Bool :=
  match token.kind with
  | .value | .operator => (builder.pushName token.text, false)
  | .separator | .tab | .comma => (builder, false)
  | .lineEnd | .statementEnd => (builder.endName, false)
  | .bracketOpen | .bracketClose | .blockOpen | .blockClose => (builder.endName, true)

/-- Notes an operator that the language does not have, or refuses it. -/
def checkOperator (assembler : Assembler) (step : Builder.Step) (line : Nat) :
    Except ParseError Assembler :=
  match step with
  | .operator text =>
    if (OperatorKind.ofText text).isKnown then
      .ok assembler
    else if assembler.strictOperators then
      .error (.invalidOperator text line)
    else
      .ok { assembler with
        diagnostics := assembler.diagnostics ++ [unknownOperatorFinding text line] }
  | _ => .ok assembler

/-- Takes a step of the script being read. -/
def build (assembler : Assembler) (builder : Builder) (step : Builder.Step) (line : Nat) :
    Assembler × Except ParseError (Option Script) :=
  match assembler.checkOperator step line with
  | .error error => (assembler, .error error)
  | .ok checked =>
    match builder.apply step line with
    | .error error => (checked, .error error)
    | .ok next => ({ checked with builder := some next }, .ok none)

/-- Takes a token of the script being read, after its name. -/
def consumeBody (assembler : Assembler) (builder : Builder) (token : Token) :
    Assembler × Except ParseError (Option Script) :=
  match Action.ofToken token with
  | .skip => ({ assembler with builder := some builder }, .ok none)
  | .build step => assembler.build builder step token.line
  | .remark => ({ assembler with remark := true }, (builder.finish token.line).map some)
  | .nextScript => (assembler.openScript token.line, (builder.finish token.line).map some)

/-- Takes one token: the assembler after it, and the script it ended, if any.
After an error the assembler is of no more use, but for its findings. -/
def consume (assembler : Assembler) (token : Token) :
    Assembler × Except ParseError (Option Script) :=
  match assembler.builder with
  | none => (assembler.consumeOutside token, .ok none)
  | some builder =>
    let between := { assembler with builder := none }
    if builder.readingName then
      match consumeName builder token with
      | (next, false) => ({ between with builder := some next }, .ok none)
      | (next, true) => between.consumeBody next token
    else
      between.consumeBody builder token

end Assembler

end SignalScript
