import SignalScript.Proofs.Comment.Blank
import SignalScript.Proofs.Parser.Results
import SignalScript.Proofs.Text.Casing

/-!
# Letter case

Signal scripts do not distinguish letter case.  Where the scanner collects a character
it collects its upper-case form, and reading that form character by character does the
same; everywhere else the characters that matter have no case.  So an upper-cased text
has the same tokens on the same lines, although its lines can be longer, and with them
the same scripts and errors.
-/

namespace SignalScript

open Text (upperCase upperCaseString upperCaseText)

namespace Scan

/-- What is collected of a character ends an operator, as the character itself does. -/
private theorem run_symbol_plain (text : String) {c first : Char} {others : List Char}
    (hpunctuation : TokenKind.ofPunctuation? c = none) (hoperator : c ∉ operatorChars)
    (hupper : upperCase c = first :: others)
    (hplain : ∀ upper ∈ upperCase c, PlainChar upper) :
    run (.symbol text) (upperCase c) = step (.symbol text) c := by
  have hends : ∀ {next : Char}, TokenKind.ofPunctuation? next = none → next ∉ operatorChars →
      step (.symbol text) next = ([⟨.operator, text⟩], .word (String.ofList (upperCase next))) := by
    intro next hnone hother
    have hslash : next ≠ '/' := fun heq => hother (heq ▸ by decide)
    have hstar : next ≠ '*' := fun heq => hother (heq ▸ by decide)
    simp only [step, hslash, hstar, and_false, if_false, push_not_mem_compoundOperators text hother,
      begin, hnone, if_neg hother]
    rfl
  have hfirst := hplain first (by simp [hupper])
  have hothers : ∀ other ∈ others, PlainChar other := fun other hmem =>
    hplain other (by simp [hupper, hmem])
  rw [hends hpunctuation hoperator, hupper, run_cons, hends hfirst.punctuation hfirst.operator,
    hfirst.upper, run_word _ hothers, ← String.ofList_append]
  rfl

/-- Skipping what is collected of a character skips the character. -/
private theorem run_blockComment_plain (star : Bool) {c : Char} (hoperator : c ∉ operatorChars)
    (hne : upperCase c ≠ []) (hplain : ∀ upper ∈ upperCase c, PlainChar upper) :
    run (.blockComment star) (upperCase c) = step (.blockComment star) c := by
  have hskips : ∀ (star : Bool) {next : Char}, next ∉ operatorChars →
      step (.blockComment star) next = ([], .blockComment false) := by
    intro star next hother
    have hslash : next ≠ '/' := fun heq => hother (heq ▸ by decide)
    have hstar : next ≠ '*' := fun heq => hother (heq ▸ by decide)
    simp [step, hslash, hstar]
  have hrest : ∀ others : List Char, (∀ upper ∈ others, PlainChar upper) →
      run (.blockComment false) others = ([], .blockComment false) := by
    intro others hothers
    induction others with
    | nil => rfl
    | cons next others ih =>
        obtain ⟨hnext, hothers⟩ := List.forall_mem_cons.mp hothers
        rw [run_cons, hskips false hnext.operator, ih hothers]
        rfl
  obtain ⟨first, others, hupper⟩ := List.exists_cons_of_ne_nil hne
  rw [hupper] at hplain
  obtain ⟨hfirst, hothers⟩ := List.forall_mem_cons.mp hplain
  rw [hupper, run_cons, hskips star hfirst.operator, hrest others hothers, hskips star hoperator]
  rfl

/-- In every mode, the upper-case form of a character is read like the character. -/
theorem run_upperCase (mode : Mode) (c : Char) : run mode (upperCase c) = step mode c := by
  have hsame : upperCase c = [c] → run mode (upperCase c) = step mode c := by
    intro hupper
    rw [hupper, run_cons, run_nil, List.append_nil]
  cases hpunctuation : TokenKind.ofPunctuation? c with
  | some kind => exact hsame (upperCase_of_punctuation hpunctuation)
  | none =>
      by_cases hoperator : c ∈ operatorChars
      · exact hsame (upperCase_of_mem_operatorChars hoperator)
      · obtain ⟨hne, hplain⟩ := PlainChar.of_mem_upperCase hpunctuation hoperator
        cases mode with
        | word text =>
            simp only [run_word text hplain, step, begin, hpunctuation, if_neg hoperator]
        | symbol text =>
            obtain ⟨first, others, hupper⟩ := List.exists_cons_of_ne_nil hne
            exact run_symbol_plain text hpunctuation hoperator hupper hplain
        | lineComment => exact run_lineComment _
        | blockComment star => exact run_blockComment_plain star hoperator hne hplain

theorem run_upperCaseText (mode : Mode) (text : List Char) :
    run mode (upperCaseText text) = run mode text := by
  induction text generalizing mode with
  | nil => rfl
  | cons c rest ih =>
      rw [Text.upperCaseText_cons, run_append, run_upperCase, ih, run_cons]

theorem line_upperCaseString (inComment : Bool) (text : String) :
    line inComment (upperCaseString text) = line inComment text := by
  simp only [line, Text.toList_upperCaseString, Text.dropReturn_upperCaseText, run_upperCaseText]

end Scan

theorem TokenStream.tokensOfLines_upperCaseString (lineNumber : Nat) (inComment : Bool)
    (lines : List String) :
    tokensOfLines lineNumber inComment (lines.map upperCaseString) =
      tokensOfLines lineNumber inComment lines := by
  induction lines generalizing lineNumber inComment with
  | nil => rfl
  | cons line rest ih =>
      simp only [List.map_cons, tokensOfLines, Scan.line_upperCaseString, ih]

theorem tokenize_upperCaseString (source : String) :
    tokenize (upperCaseString source) = tokenize source := by
  simp only [tokenize, TokenStream.ofSource, TokenStream.ofLines, TokenStream.toList,
    Text.lines_upperCaseString, TokenStream.tokensOfLines_upperCaseString]

theorem parseScriptsWith_upperCaseString (options : Options) (source : String) :
    parseScriptsWith options (upperCaseString source) = parseScriptsWith options source := by
  simp only [parseScriptsWith, Parser.scripts, Parser.results_ofLines, Text.lines_upperCaseString,
    List.length_map, TokenStream.tokensOfLines_upperCaseString]

/-- A text and its upper-case form have the same tokens, and the same scripts or the same
error under all settings; so any two texts with the same upper-case form do. -/
theorem letter_case_ignored :
    (∀ source : String,
      tokenize (upperCaseString source) = tokenize source ∧
        parseScripts (upperCaseString source) = parseScripts source ∧
          ∀ options : Options, parseScriptsWith options (upperCaseString source) =
            parseScriptsWith options source) ∧
      ∀ left right : String, upperCaseString left = upperCaseString right →
        tokenize left = tokenize right ∧ parseScripts left = parseScripts right ∧
          ∀ options : Options, parseScriptsWith options left = parseScriptsWith options right := by
  constructor
  case left =>
    intro source
    exact ⟨tokenize_upperCaseString source, parseScriptsWith_upperCaseString {} source,
      fun options => parseScriptsWith_upperCaseString options source⟩
  case right =>
    intro left right hupper
    have hparsed : ∀ options : Options,
        parseScriptsWith options left = parseScriptsWith options right := by
      intro options
      rw [← parseScriptsWith_upperCaseString options left, hupper,
        parseScriptsWith_upperCaseString]
    refine ⟨?_, hparsed {}, hparsed⟩
    rw [← tokenize_upperCaseString left, hupper, tokenize_upperCaseString]

/-- Two texts of different lengths with the same upper-case form. -/
theorem letter_case_ignored_expansion :
    upperCaseString "script ß\r\nﬁ /* ŉ\n*/;" = upperCaseString "SCRIPT sS\r\nFi /* ʼN\n*/;" ∧
      parseScripts "script ß\r\nﬁ /* ŉ\n*/;" = parseScripts "SCRIPT sS\r\nFi /* ʼN\n*/;" := by
  have hupper : upperCaseString "script ß\r\nﬁ /* ŉ\n*/;" =
      upperCaseString "SCRIPT sS\r\nFi /* ʼN\n*/;" := by decide +kernel
  exact ⟨hupper, (letter_case_ignored.2 _ _ hupper).2.1⟩

end SignalScript
