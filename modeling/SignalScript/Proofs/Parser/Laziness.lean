import SignalScript.Proofs.Builder.ErrorLines
import SignalScript.Proofs.Parser.Calls
import SignalScript.Proofs.Parser.Sections
import SignalScript.Proofs.Token.Reading

/-!
# Reading no further than needed

A parser has read the lines up to that of the token which it takes, and none behind it.  So
every error is on the last line read, wherever in the script it is noticed, and a script is
handed out on the line of the word that ends it.
-/

namespace SignalScript

namespace Assembler

end Assembler

namespace Parser

variable {lines : List String} {offset : Nat}

/-- Whether a parser has read the first of its lines, and none behind them. -/
def ReadsOn (lines : List String) (offset : Nat) (parser : Parser) : Prop :=
  ∃ read, parser.stream.HasRead lines offset read

theorem ReadsOn.token {parser : Parser} (hreads : parser.ReadsOn lines offset) {token : Token}
    {stream : TokenStream} (hpulled : parser.stream.next = (some token, stream))
    (assembler : Assembler) :
    ({ parser with stream, assembler } : Parser).ReadsOn lines offset := by
  obtain ⟨read, hread⟩ := hreads
  obtain ⟨later, hlater, -⟩ := hread.next_some hpulled
  exact ⟨later, hlater⟩

theorem ReadsOn.next {parser : Parser} (hreads : parser.ReadsOn lines offset) :
    parser.next.2.ReadsOn lines offset := by
  fun_induction Parser.next parser with
  | case1 parser finished => exact hreads
  | case2 parser finished stream pulled ended =>
    obtain ⟨read, hread⟩ := hreads
    exact ⟨lines.length, (hread.next_none pulled).1⟩
  | case3 parser finished token stream pulled assembler consumed ih =>
    exact ih (hreads.token pulled assembler)
  | case4 parser finished token stream pulled assembler script consumed =>
    exact hreads.token pulled assembler
  | case5 parser finished token stream pulled assembler error consumed =>
    exact hreads.token pulled assembler

end Parser

end SignalScript
