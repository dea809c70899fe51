import SignalScript.Assembler
import SignalScript.Token.Stream

/-!
# Parsing

A parser pulls tokens from a stream into an assembler and hands out each script
when it ends.  The first error ends everything: after it, as after the last
script, nothing more comes and no further line is read.
-/

namespace SignalScript

structure Parser where
  stream : TokenStream
  assembler : Assembler
  /-- Whether the end or an error has been handed out. -/
  finished : Bool := false
  deriving Inhabited, Repr

namespace Parser

/-- A parser of lines with all settings, the line offset included. -/
def ofLines (lines : List String) (options : Options) : Parser :=
  { stream := .ofLines lines options.lineOffset, assembler := .ofOptions options }

/-- The number of the last line read. -/
def lineNumber (parser : Parser) : Nat := parser.stream.lineNumber

/-- The findings so far, in source order. -/
def diagnostics (parser : Parser) : List Diagnostic := parser.assembler.diagnostics

/-- The parser without the findings so far. -/
def clearDiagnostics (parser : Parser) : Parser :=
  { parser with assembler := { parser.assembler with diagnostics := [] } }

/-- The result of the end of the lines: the script being read ends there. -/
def atEnd (parser : Parser) : Option (Except ParseError Script) :=
  parser.assembler.builder.map (·.finish parser.lineNumber)

/-- The next script or error, and the parser after it. -/
def next (parser : Parser) : Option (Except ParseError Script) × Parser :=
  if parser.finished then
    (none, parser)
  else
    match _pulled : parser.stream.next with
    | (none, stream) =>
      let ended := { parser with stream, finished := true }
      (ended.atEnd, ended)
    | (some token, stream) =>
      match parser.assembler.consume token with
      | (assembler, .ok none) => next { parser with stream, assembler }
      | (assembler, .ok (some script)) => (some (.ok script), { parser with stream, assembler })
      | (assembler, .error error) =>
        (some (.error error), { stream, assembler, finished := true })
termination_by parser.stream.toList.length
decreasing_by
  exact TokenStream.length_toList_of_next _pulled

/-- What is left to do: the tokens not taken, and the end. -/
def remaining (parser : Parser) : Nat :=
  parser.stream.toList.length + if parser.finished then 0 else 1

/-- A result always leaves less to do. -/
theorem remaining_next_lt (parser : Parser) {result : Except ParseError Script} {after : Parser}
    (found : parser.next = (some result, after)) : after.remaining < parser.remaining := by
  fun_induction next parser with
  | case1 parser finished => simp at found
  | case2 parser finished stream pulled ended =>
    obtain ⟨-, rfl⟩ := Prod.mk.inj found
    have left := TokenStream.toList_of_next_none pulled
    simp [remaining, finished, left, ended]
  | case3 parser finished token stream pulled assembler consumed ih =>
    have shorter := TokenStream.length_toList_of_next pulled
    have := ih found
    simp only [remaining] at this ⊢
    omega
  | case4 parser finished token stream pulled assembler script consumed =>
    obtain ⟨-, rfl⟩ := Prod.mk.inj found
    have shorter := TokenStream.length_toList_of_next pulled
    simp only [remaining]
    omega
  | case5 parser finished token stream pulled assembler error consumed =>
    obtain ⟨-, rfl⟩ := Prod.mk.inj found
    have shorter := TokenStream.length_toList_of_next pulled
    simp only [remaining, finished]
    simp
    omega

/-- All results that are left, with at most one error, which is the last. -/
def results (parser : Parser) : List (Except ParseError Script) :=
  match _pulled : parser.next with
  | (none, _) => []
  | (some result, after) => result :: after.results
termination_by parser.remaining
decreasing_by
  exact remaining_next_lt parser _pulled

/-- All scripts that are left, or the error. -/
def scripts (parser : Parser) : Except ParseError (List Script) :=
  parser.results.mapM id

end Parser

/-- The scripts of a text, parsed with settings. -/
def parseScriptsWith (options : Options) (source : String) : Except ParseError (List Script) :=
  (Parser.ofLines (Text.lines source) options).scripts

/-- The scripts of a text. -/
def parseScripts (source : String) : Except ParseError (List Script) :=
  parseScriptsWith {} source

end SignalScript
