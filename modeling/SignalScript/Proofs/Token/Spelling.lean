import SignalScript.Proofs.Grammar.Derivation
import SignalScript.Proofs.Token.Found

/-!
# Text that spells lexemes

Text of a line spells lexemes if the scanner finds them in it, apart from blanks,
and no comment begins or could end there.  What stands between two marks of
punctuation is scanned on its own, so the lexemes of a line are those of its parts.
-/

namespace SignalScript

/-- Whether a lexeme has no meaning after the name of a script. -/
def Lexeme.isBlank (lexeme : Lexeme) : Bool := (lexeme.onLine 0).isBlank

@[simp]
theorem Token.isBlank_lexeme (token : Token) : token.lexeme.isBlank = token.isBlank := rfl

@[simp]
theorem Lexeme.isBlank_onLine (lexeme : Lexeme) (line : Nat) :
    (lexeme.onLine line).isBlank = lexeme.isBlank := rfl

namespace Scan

def Mode.isComment : Mode → Bool
  | .word _ | .symbol _ => false
  | .lineComment | .blockComment _ => true

/-- The lexemes found if nothing follows, without the blanks. -/
def meaning (read : List Lexeme × Mode) : List Lexeme :=
  (read.1 ++ read.2.flush).filter fun lexeme => !lexeme.isBlank

structure Spells (text : List Char) (lexemes : List Lexeme) : Prop where
  feed : '\n' ∉ text
  outside : (run .idle text).2.isComment = false
  found : meaning (run .idle text) = lexemes
  /-- Text that would be skipped if a comment had begun before it. -/
  skipped : ∃ star, run (.blockComment false) text = ([], .blockComment star)

theorem meaning_append (first : List Lexeme) (read : List Lexeme × Mode) :
    meaning (first ++ read.1, read.2) =
      first.filter (fun lexeme => !lexeme.isBlank) ++ meaning read := by
  simp [meaning]

/-! ## Punctuation -/

/-- Operators go on with the characters that operators are spelled with. -/
theorem push_not_mem_compoundOperators (text : String) {c : Char} (hoperator : c ∉ operatorChars) :
    text.push c ∉ compoundOperators := by
  intro hmem
  have hlast : ∀ compound ∈ compoundOperators,
      (compound.toList.getLast?.any fun last => decide (last ∈ operatorChars)) = true := by
    decide
  have hpushed := hlast _ hmem
  rw [String.toList_push, List.getLast?_concat, Option.any_some] at hpushed
  exact hoperator (of_decide_eq_true hpushed)

private theorem not_mem_operatorChars {c : Char} {kind : TokenKind}
    (hkind : TokenKind.ofPunctuation? c = some kind) : c ∉ operatorChars := by
  have hnone : (operatorChars.all fun c => (TokenKind.ofPunctuation? c).isNone) = true := by
    decide
  intro hmem
  have hpunctuation := List.all_eq_true.mp hnone c hmem
  rw [hkind] at hpunctuation
  cases hpunctuation

/-- A mark of punctuation ends what stands before it. -/
theorem step_punctuation {mode : Mode} (houtside : mode.isComment = false) {c : Char}
    {kind : TokenKind} (hkind : TokenKind.ofPunctuation? c = some kind) :
    step mode c = (mode.flush ++ [⟨kind, c.toString⟩], .idle) := by
  cases mode with
  | word text => simp only [step, begin, hkind]
  | symbol text =>
      have hslash : c ≠ '/' := by
        rintro rfl
        simp [TokenKind.ofPunctuation?] at hkind
      have hstar : c ≠ '*' := by
        rintro rfl
        simp [TokenKind.ofPunctuation?] at hkind
      simp only [step, hslash, hstar, and_false, if_false,
        push_not_mem_compoundOperators text (not_mem_operatorChars hkind), begin, hkind]
  | lineComment => simp [Mode.isComment] at houtside
  | blockComment star => simp [Mode.isComment] at houtside

theorem step_comment_punctuation (star : Bool) {c : Char} {kind : TokenKind}
    (hkind : TokenKind.ofPunctuation? c = some kind) :
    step (.blockComment star) c = ([], .blockComment false) := by
  have hslash : c ≠ '/' := by
    rintro rfl
    simp [TokenKind.ofPunctuation?] at hkind
  have hstar : c ≠ '*' := by
    rintro rfl
    simp [TokenKind.ofPunctuation?] at hkind
  simp [step, hslash, hstar]

theorem spells_nil : Spells [] [] :=
  ⟨by simp, rfl, rfl, false, rfl⟩

/-- The lexemes of two parts with a mark of punctuation between them. -/
theorem Spells.append {left right : List Char} {before after : List Lexeme} {c : Char}
    {kind : TokenKind} (hleft : Spells left before)
    (hkind : TokenKind.ofPunctuation? c = some kind) (hright : Spells right after) :
    Spells (left ++ c :: right)
      (before ++ ([⟨kind, c.toString⟩].filter fun lexeme => !lexeme.isBlank) ++ after) := by
  have hstep := step_punctuation hleft.outside hkind
  have hrun : run .idle (left ++ c :: right) =
      ((run .idle left).1 ++ ((run .idle left).2.flush ++ [⟨kind, c.toString⟩]) ++
        (run .idle right).1, (run .idle right).2) := by
    simp only [run_append, run_cons, hstep, List.append_assoc]
  refine ⟨?_, ?_, ?_, ?_⟩
  · intro hmem
    rcases List.mem_append.mp hmem with hmem | hmem
    · exact hleft.feed hmem
    · rcases List.mem_cons.mp hmem with rfl | hmem
      · simp [TokenKind.ofPunctuation?] at hkind
      · exact hright.feed hmem
  · rw [hrun]
    exact hright.outside
  · rw [hrun, meaning_append, hright.found, ← hleft.found]
    simp [meaning]
  · obtain ⟨leftStar, hskipped⟩ := hleft.skipped
    obtain ⟨star, hrest⟩ := hright.skipped
    refine ⟨star, ?_⟩
    rw [run_append, hskipped, run_cons, step_comment_punctuation leftStar hkind, hrest]
    rfl

theorem Spells.space {left right : List Char} {before after : List Lexeme}
    (hleft : Spells left before) (hright : Spells right after) :
    Spells (left ++ ' ' :: right) (before ++ after) := by
  have happend := hleft.append (c := ' ') rfl hright
  rwa [show ([⟨.separator, ' '.toString⟩] : List Lexeme).filter (fun lexeme => !lexeme.isBlank) =
    [] from rfl, List.append_nil] at happend

theorem Spells.mark {left right : List Char} {before after : List Lexeme} {c : Char}
    {kind : TokenKind} (hleft : Spells left before)
    (hkind : TokenKind.ofPunctuation? c = some kind)
    (hblank : (⟨kind, c.toString⟩ : Lexeme).isBlank = false) (hright : Spells right after) :
    Spells (left ++ c :: right) (before ++ ⟨kind, c.toString⟩ :: after) := by
  have happend := hleft.append hkind hright
  rwa [List.filter_cons_of_pos (by rw [hblank]; rfl), List.filter_nil, List.append_assoc] at happend

/-- What stands behind spaces is as if they were not there. -/
theorem Spells.indented {text : List Char} {lexemes : List Lexeme} (htext : Spells text lexemes)
    (depth : Nat) : Spells (List.replicate depth ' ' ++ text) lexemes := by
  induction depth with
  | zero => exact htext
  | succ depth ih => exact spells_nil.space ih

/-! ## Words and symbols -/

theorem step_plainChar (text : String) {c : Char} (hplain : PlainChar c) :
    step (.word text) c = ([], .word (text.push c)) := by
  simp only [step, begin, hplain.punctuation, hplain.operator, if_false, hplain.upper]
  rw [show text ++ String.ofList [c] = text.push c by
    rw [← String.toList_inj]
    simp]

theorem run_word (text : String) {word : List Char} (hword : ∀ c ∈ word, PlainChar c) :
    run (.word text) word = ([], .word (text ++ String.ofList word)) := by
  induction word generalizing text with
  | nil => simp
  | cons c rest ih =>
      rw [run_cons, step_plainChar text (hword c (.head _)),
        ih _ fun other hother => hword other (.tail _ hother)]
      rw [show text.push c ++ String.ofList rest = text ++ String.ofList (c :: rest) by
        rw [← String.toList_inj]
        simp]
      rfl

theorem run_comment_word {word : List Char} (hword : ∀ c ∈ word, WordChar c) :
    run (.blockComment false) word = ([], .blockComment false) := by
  induction word with
  | nil => rfl
  | cons c rest ih =>
      have hstar : c ≠ '*' := by
        rintro rfl
        exact (hword '*' (.head _)).operator (by decide)
      have hstep : step (.blockComment false) c = ([], .blockComment false) := by
        simp [step, hstar]
      rw [run_cons, hstep, ih fun other hother => hword other (.tail _ hother)]
      rfl

theorem spells_word {text : String} (hword : IsWord text) :
    Spells text.toList [⟨.value, text⟩] := by
  have hrun : run .idle text.toList = ([], .word text) := by
    rw [run_word "" fun c hmem => (hword.2 c hmem).plain]
    simp
  refine ⟨?_, ?_, ?_, false, run_comment_word hword.2⟩
  · intro hmem
    exact (hword.2 '\n' hmem).feed rfl
  · rw [hrun]
    rfl
  · rw [hrun]
    simp [meaning, Mode.flush, hword.1, Lexeme.isBlank, Token.isBlank, Lexeme.onLine]

private theorem run_symbol : ∀ text ∈ symbols, '\n' ∉ text.toList ∧
    run .idle text.toList = ([], .symbol text) ∧
      ((run (.blockComment false) text.toList = ([], .blockComment false)) ∨
        run (.blockComment false) text.toList = ([], .blockComment true)) := by
  decide +kernel

theorem spells_symbol {text : String} (hsymbol : text ∈ symbols) :
    Spells text.toList [⟨.operator, text⟩] := by
  obtain ⟨hfeed, hrun, hskipped⟩ := run_symbol text hsymbol
  refine ⟨hfeed, ?_, ?_, ?_⟩
  · rw [hrun]
    rfl
  · rw [hrun]
    rfl
  · rcases hskipped with hskipped | hskipped
    · exact ⟨false, hskipped⟩
    · exact ⟨true, hskipped⟩

/-! ## Lines -/

/-- A line that spells lexemes gives them, and no comment goes on behind it. -/
theorem line_spells {text : String} {lexemes : List Lexeme}
    (hspells : Spells text.toList lexemes) (hreturn : text.toList.getLast? ≠ some '\r') :
    (line false text).inComment = false ∧
      ((line false text).lexemes.filter fun lexeme => !lexeme.isBlank) = lexemes := by
  have hdrop : Text.dropReturn text.toList = text.toList := by
    rw [Text.dropReturn, if_neg hreturn]
  have hclose : ∀ (found : List Lexeme) (mode : Mode),
      (close found mode).filter (fun lexeme => !lexeme.isBlank) = meaning (found, mode) := by
    intro found mode
    unfold close meaning
    cases found ++ mode.flush with
    | nil => rfl
    | cons first rest =>
        rw [List.filter_append]
        exact List.append_nil _
  have houtside := hspells.outside
  have hfound := hspells.found
  simp only [line, hdrop, Bool.false_eq_true, if_false]
  split
  next found star hrun => simp [hrun, Mode.isComment] at houtside
  next found mode hcomment hrun =>
    rw [hrun] at hfound
    exact ⟨rfl, (hclose found mode).trans hfound⟩

/-- A line that spells lexemes is skipped if a comment has begun before it. -/
theorem line_skipped {text : String} {lexemes : List Lexeme}
    (hspells : Spells text.toList lexemes) (hreturn : text.toList.getLast? ≠ some '\r') :
    line true text = ⟨[], true⟩ := by
  obtain ⟨star, hskipped⟩ := hspells.skipped
  simp only [line, Text.dropReturn, if_neg hreturn, if_true, hskipped]

end Scan

end SignalScript
