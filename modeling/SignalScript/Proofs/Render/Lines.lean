import SignalScript.Proofs.Grammar.Lexemes
import SignalScript.Proofs.Token.Spelling
import SignalScript.Proofs.Tree.Numbering
import SignalScript.Render

/-!
# Written lines

The lines of a script that was read spell the lexemes of its phrases, one line after
the other.
-/

namespace SignalScript

/-- Whether a line, without its indentation, spells lexemes and is not cut short when
it is read. -/
structure ScriptLine.Spells (line : ScriptLine) (lexemes : List Lexeme) : Prop where
  content : Scan.Spells line.content.toList lexemes
  ending : line.content.toList.getLast? ≠ some '\r'

theorem ScriptLine.spells_of {content : String} {lexemes : List Lexeme} (depth : Nat)
    (hcontent : Scan.Spells content.toList lexemes)
    (hending : content.toList.getLast? ≠ some '\r') : Spells ⟨depth, content⟩ lexemes :=
  ⟨hcontent, hending⟩

/-- Lines that spell lexemes together, none of which goes over the end of a line. -/
inductive Written : List ScriptLine → List Lexeme → Prop
  | nil : Written [] []
  | cons {line : ScriptLine} {lines : List ScriptLine} {lexemes rest : List Lexeme}
      (first : line.Spells lexemes) (others : Written lines rest) :
      Written (line :: lines) (lexemes ++ rest)

theorem Written.append {left right : List ScriptLine} {before after : List Lexeme}
    (hleft : Written left before) (hright : Written right after) :
    Written (left ++ right) (before ++ after) := by
  induction hleft with
  | nil => exact hright
  | cons first others ih =>
      rw [List.cons_append, List.append_assoc]
      exact .cons first ih

theorem Written.single {line : ScriptLine} {lexemes : List Lexeme} (hline : line.Spells lexemes) :
    Written [line] lexemes := by
  have hwritten := Written.cons hline .nil
  rwa [List.append_nil] at hwritten

namespace Tree

open Scan (Spells)

/-! ## Expressions -/

private theorem isWord_of_mem_operatorWords : ∀ text ∈ operatorWords, IsWord text := by
  decide +kernel

/-- Brackets around text. -/
private theorem spells_brackets {text : List Char} {lexemes : List Lexeme}
    (htext : Spells text lexemes) :
    Spells ('(' :: (text ++ [')']))
      (⟨.bracketOpen, "("⟩ :: (lexemes ++ [⟨.bracketClose, ")"⟩])) := by
  have hclosed := htext.mark (c := ')') rfl rfl Scan.spells_nil
  exact Scan.spells_nil.mark (c := '(') rfl rfl hclosed

mutual

theorem spells_expr : (expr : Expr) → (hsound : expr.Sound) → (id : Nat) →
    Spells (fragment (expr.branch.tree id)).toList expr.lexemes
  | .value _ text, hsound, _ => Scan.spells_word hsound.1
  | .operator _ text, hsound, _ => by
      rw [Expr.lexemes]
      by_cases hword : text ∈ operatorWords
      · rw [if_pos hword]
        exact Scan.spells_word (isWord_of_mem_operatorWords text hword)
      · rw [if_neg hword]
        exact Scan.spells_symbol (hsound.resolve_left hword)
  | .enclosure _ exprs, hsound, id => by
      have hinner := spells_exprs exprs hsound (id + 1)
      rw [Expr.branch, Branch.tree, fragment, Expr.lexemes]
      simpa [expression] using spells_brackets hinner

/-- Expressions with a space between them. -/
theorem spells_exprs : (exprs : List Expr) → (hsound : Expr.AllSound exprs) → (first : Nat) →
    Spells (expression (Branch.forest first (Expr.branches exprs))).toList
      (Expr.allLexemes exprs)
  | [], _, _ => Scan.spells_nil
  | [expr], hsound, first => by
      have hexpr := spells_expr expr hsound.1 first
      simpa [Expr.branches, Branch.forest, expression, fragments, Expr.allLexemes] using hexpr
  | expr :: next :: rest, hsound, first => by
      have hexpr := spells_expr expr hsound.1 first
      have hrest := spells_exprs (next :: rest) hsound.2 (first + expr.branch.size)
      have happend := hexpr.space hrest
      simpa [Expr.branches, Branch.forest, expression, fragments, Expr.allLexemes] using happend

end

theorem spells_condition {condition : Condition} (hsound : Expr.AllSound condition.exprs)
    (id : Nat) : Spells (fragment (condition.branch.tree id)).toList condition.lexemes := by
  have hinner := spells_exprs condition.exprs hsound (id + 1)
  rw [Condition.branch, Branch.tree, fragment, Condition.lexemes]
  simpa [expression] using spells_brackets hinner

/-! ## Phrases -/

private theorem spells_statement (depth : Nat) {exprs : List Expr} (hsound : Expr.AllSound exprs)
    (first : Nat) :
    ScriptLine.Spells ⟨depth, expression (Branch.forest first (Expr.branches exprs)) ++ ";"⟩
      (Expr.allLexemes exprs ++ [⟨.statementEnd, ";"⟩]) := by
  apply ScriptLine.spells_of
  · rw [String.toList_append]
    exact (spells_exprs exprs hsound first).mark (c := ';') rfl rfl Scan.spells_nil
  · simp

private theorem getLast?_condition (condition : Condition) (id : Nat) :
    (fragment (condition.branch.tree id)).toList.getLast? = some ')' := by
  rw [Condition.branch, Branch.tree, fragment, String.toList_append]
  exact List.getLast?_concat

/-- The lines of a conditional, from those of its body and alternate on. -/
private theorem written_conditional (depth : Nat) {keyword : String} {lexemes rest : List Lexeme}
    (hkeyword : Spells keyword.toList lexemes) {condition : Condition}
    (hsound : Expr.AllSound condition.exprs) (id : Nat) {parts : List Tree}
    (hparts : Written (bodyLines depth parts) rest) :
    Written (conditionalLines depth keyword (condition.branch.tree id :: parts))
      (lexemes ++ (condition.lexemes ++ rest)) := by
  rw [conditionalLines, ← List.append_assoc]
  refine .cons (ScriptLine.spells_of depth ?_ ?_) hparts
  · simpa using hkeyword.space (spells_condition hsound id)
  · rw [String.toList_append, List.getLast?_append, getLast?_condition]
    simp

/-- Whether a phrase is written as its lexemes, at any depth and also as an
alternate. -/
def WrittenAs (phrase : Phrase) : Prop :=
  ∀ depth id : Nat,
    (∀ isAlternate, Written (lines depth ((phrase.branch isAlternate).tree id)) phrase.lexemes) ∧
      Written (alternateLines depth [(phrase.branch true).tree id])
        (⟨.value, "ELSE"⟩ :: phrase.lexemes)

/-- An alternate that is no conditional stands below a line with the `ELSE`. -/
private theorem written_else (depth : Nat) {lines : List ScriptLine} {lexemes : List Lexeme}
    (hlines : Written lines lexemes) :
    Written (⟨depth, "ELSE"⟩ :: lines) (⟨.value, "ELSE"⟩ :: lexemes) :=
  .cons (ScriptLine.spells_of depth (Scan.spells_word (by decide)) (by decide)) hlines

private theorem spells_punctuation {c : Char} {kind : TokenKind}
    (hkind : TokenKind.ofPunctuation? c = some kind)
    (hblank : (⟨kind, c.toString⟩ : Lexeme).isBlank = false) :
    Spells c.toString.toList [⟨kind, c.toString⟩] := by
  simpa using Scan.spells_nil.mark hkind hblank Scan.spells_nil

private theorem spells_if : Spells "IF".toList [⟨.value, "IF"⟩] :=
  Scan.spells_word (by decide)

private theorem spells_elseIf : Spells "ELSE IF".toList [⟨.value, "ELSE"⟩, ⟨.value, "IF"⟩] :=
  (Scan.spells_word (show IsWord "ELSE" by decide)).space spells_if

mutual

theorem writtenAs_phrase : (phrase : Phrase) → {inSlot : Bool} → (hsound : phrase.Sound inSlot) →
    WrittenAs phrase
  | .statement _ exprs, _, hsound => by
      intro depth id
      have hlines : ∀ depth, Written
          [⟨depth, expression (Branch.forest (id + 1) (Expr.branches exprs)) ++ ";"⟩]
            (Expr.allLexemes exprs ++ [⟨.statementEnd, ";"⟩]) :=
        fun depth => .single (spells_statement depth hsound.2 (id + 1))
      exact ⟨fun _ => hlines depth, written_else depth (hlines _)⟩
  | .block _ phrases, _, hsound => by
      intro depth id
      have hlines : ∀ depth, Written
          (⟨depth, "\x7b"⟩ :: forestLines (depth + 1)
            (Branch.forest (id + 1) (Phrase.branches phrases)) ++ [⟨depth, "\x7d"⟩])
              (⟨.blockOpen, "\x7b"⟩ ::
                (Phrase.allLexemes phrases ++ [⟨.blockClose, "\x7d"⟩])) := by
        intro depth
        have hopened : ScriptLine.Spells ⟨depth, "\x7b"⟩ [⟨.blockOpen, "\x7b"⟩] :=
          ScriptLine.spells_of depth (spells_punctuation (c := '\x7b') rfl rfl) (by decide)
        have hclosed : ScriptLine.Spells ⟨depth, "\x7d"⟩ [⟨.blockClose, "\x7d"⟩] :=
          ScriptLine.spells_of depth (spells_punctuation (c := '\x7d') rfl rfl) (by decide)
        exact .cons hopened ((written_phrases phrases hsound (depth + 1) (id + 1)).append
          (.single hclosed))
      exact ⟨fun _ => hlines depth, written_else depth (hlines _)⟩
  | .conditional condition body, _, hsound => by
      intro depth id
      have hparts : Written (bodyLines depth
          [(body.branch false).tree (id + 1 + condition.branch.size)]) body.lexemes := by
        rw [bodyLines, ← List.append_nil body.lexemes]
        exact ((writtenAs_phrase body hsound.2 _ _).1 false).append .nil
      exact ⟨fun _ => written_conditional depth spells_if hsound.1 (id + 1) hparts,
        written_conditional depth spells_elseIf hsound.1 (id + 1) hparts⟩
  | .alternative condition body alternate, _, hsound => by
      intro depth id
      obtain ⟨hcondition, hbody, _, halternate⟩ := hsound
      have hparts : Written (bodyLines depth
          [(body.branch false).tree (id + 1 + condition.branch.size),
            (alternate.branch true).tree
              (id + 1 + condition.branch.size + (body.branch false).size)])
          (body.lexemes ++ ⟨.value, "ELSE"⟩ :: alternate.lexemes) := by
        rw [bodyLines]
        exact ((writtenAs_phrase body hbody _ _).1 false).append
          (writtenAs_phrase alternate halternate depth _).2
      exact ⟨fun _ => written_conditional depth spells_if hcondition (id + 1) hparts,
        written_conditional depth spells_elseIf hcondition (id + 1) hparts⟩

theorem written_phrases : (phrases : List Phrase) → (hsound : Phrase.AllSound phrases) →
    (depth : Nat) → (first : Nat) →
      Written (forestLines depth (Branch.forest first (Phrase.branches phrases)))
        (Phrase.allLexemes phrases)
  | [], _, _, _ => .nil
  | first :: rest, hsound, depth, id => by
      exact ((writtenAs_phrase first hsound.1 depth id).1 false).append
        (written_phrases rest hsound.2 depth _)

end

end Tree

end SignalScript
