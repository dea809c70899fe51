import SignalScript.Proofs.Comment.Tokens
import SignalScript.Proofs.Parser.Body
import SignalScript.Proofs.Parser.Results
import SignalScript.Proofs.Render.Lines
import SignalScript.Proofs.Text.Lines

/-!
# Reading written lines

Written lines are read, whatever stands before and behind them, as the phrases that
they were written for.
-/

namespace SignalScript

/-- No comment goes on behind lines that end outside of comments. -/
theorem Comment.openAfter_eq_false {lines : List String}
    (hlines : ∀ line ∈ lines, (Scan.line false line).inComment = false) :
    openAfter false lines = false := by
  induction lines with
  | nil => rfl
  | cons line rest ih =>
      have hline := hlines line (.head _)
      rw [Scan.inComment_line] at hline
      rw [openAfter, List.foldl_cons, hline]
      exact ih fun other hother => hlines other (.tail _ hother)

namespace ScriptLine

/-- The line with its indentation. -/
def source (line : ScriptLine) : String :=
  String.ofList (List.replicate (2 * line.depth) ' ') ++ line.content

theorem text_eq (line : ScriptLine) : line.text = line.source ++ "\n" := rfl

theorem Spells.source {line : ScriptLine} {lexemes : List Lexeme} (hline : line.Spells lexemes) :
    Scan.Spells line.source.toList lexemes ∧ line.source.toList.getLast? ≠ some '\r' := by
  have htext : line.source.toList = List.replicate (2 * line.depth) ' ' ++ line.content.toList := by
    simp [ScriptLine.source]
  rw [htext]
  refine ⟨hline.content.indented _, ?_⟩
  rw [List.getLast?_append]
  cases hlast : line.content.toList.getLast? with
  | none => simp [List.getLast?_replicate]
  | some c =>
      have hending := hline.ending
      rw [hlast] at hending
      simpa using hending

end ScriptLine

namespace Written

/-- The lines of a text that begins with written lines. -/
theorem lines_append {lines : List ScriptLine} {lexemes : List Lexeme}
    (hwritten : Written lines lexemes) (rest : String) :
    Text.lines (String.join (lines.map ScriptLine.text) ++ rest) =
      lines.map ScriptLine.source ++ Text.lines rest := by
  induction hwritten with
  | nil => simp
  | @cons line lines _ _ first others ih =>
      obtain ⟨hspells, hending⟩ := first.source
      rw [List.map_cons, String.join_cons, ScriptLine.text_eq, String.append_assoc,
        Text.lines_append_feed hspells.feed, ih, Text.dropReturn, if_neg hending,
        String.ofList_toList]
      rfl

theorem inComment {lines : List ScriptLine} {lexemes : List Lexeme}
    (hwritten : Written lines lexemes) :
    ∀ line ∈ lines.map ScriptLine.source, (Scan.line false line).inComment = false := by
  induction hwritten with
  | nil => simp
  | cons first others ih =>
      obtain ⟨hspells, hending⟩ := first.source
      rw [List.map_cons, List.forall_mem_cons]
      exact ⟨(Scan.line_spells hspells hending).1, ih⟩

/-- The tokens of written lines, without the blanks. -/
theorem lexemes_tokens {lines : List ScriptLine} {lexemes : List Lexeme}
    (hwritten : Written lines lexemes) (lineNumber : Nat) :
    ((TokenStream.tokensOfLines lineNumber false (lines.map ScriptLine.source)).filter
      fun token => !token.isBlank).map Token.lexeme = lexemes := by
  induction hwritten generalizing lineNumber with
  | nil => rfl
  | @cons line lines lexemes rest first others ih =>
      obtain ⟨hspells, hending⟩ := first.source
      obtain ⟨houtside, hfound⟩ := Scan.line_spells hspells hending
      have hlocated : ∀ found : List Lexeme,
          ((TokenStream.locate (nextLine lineNumber) found).filter fun token => !token.isBlank).map
            Token.lexeme = found.filter fun lexeme => !lexeme.isBlank := by
        intro found
        simp [TokenStream.locate, List.filter_map, Function.comp_def]
      rw [List.map_cons, TokenStream.tokensOfLines, List.filter_append, List.map_append, hlocated,
        hfound, houtside, ih]

/-- Behind a comment that has begun, written lines have no tokens. -/
theorem tokens_skipped {lines : List ScriptLine} {lexemes : List Lexeme}
    (hwritten : Written lines lexemes) (lineNumber : Nat) :
    TokenStream.tokensOfLines lineNumber true (lines.map ScriptLine.source) = [] := by
  induction hwritten generalizing lineNumber with
  | nil => rfl
  | cons first others ih =>
      obtain ⟨hspells, hending⟩ := first.source
      rw [List.map_cons, TokenStream.tokensOfLines, Scan.line_skipped hspells hending]
      exact ih (nextLine lineNumber)

end Written

end SignalScript
