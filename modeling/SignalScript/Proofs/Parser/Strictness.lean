import SignalScript.Proofs.Parser.Safety
import SignalScript.Proofs.Parser.Sections

/-!
# Strictness about operators

A strict parser goes along with the lenient one up to the first operator that the language
does not have.  Where the lenient parser notes its first finding, the strict one refuses
the operator, with the text and the line of the finding.
-/

namespace SignalScript

namespace Assembler

/-- The assembler that refuses operators which the language does not have. -/
def strict (assembler : Assembler) : Assembler :=
  { assembler with strictOperators := true }

variable {assembler : Assembler}

end Assembler

namespace Parser

/-! ## Calls -/

/-- The parser after calls for results. -/
def after (parser : Parser) : Nat → Parser
  | 0 => parser
  | calls + 1 => parser.next.2.after calls

variable {parser : Parser}

/-- The parser that refuses operators which the language does not have. -/
def strict (parser : Parser) : Parser :=
  { parser with assembler := parser.assembler.strict }

end Parser

end SignalScript
