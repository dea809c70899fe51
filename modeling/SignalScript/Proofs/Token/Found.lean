import SignalScript.Proofs.Token.Words
import SignalScript.Token.Stream

/-!
# What the scanner finds

In lines without line feeds the scanner finds values made of `WordChar`s and
operators that are spelled with the symbols of the language, and nothing else
besides punctuation and blanks.
-/

namespace SignalScript

/-- The operators that are spelled with symbols. -/
def symbols : List String :=
  operatorChars.map Char.toString ++ compoundOperators

/-- Whether a text is that of a value. -/
def IsWord (text : String) : Prop :=
  text ≠ "" ∧ ∀ c ∈ text.toList, WordChar c

instance (text : String) : Decidable (IsWord text) :=
  decidable_of_iff (text ≠ "" ∧ (text.toList.all fun c => decide (WordChar c)) = true)
    (by simp [IsWord])

/-- Whether a lexeme can stand in a line. -/
def Lexeme.Sound (lexeme : Lexeme) : Prop :=
  match lexeme.kind with
  | .value => IsWord lexeme.text
  | .operator => lexeme.text ∈ symbols
  | _ => True

namespace Scan

/-- Whether what is being collected can become a lexeme. -/
def Mode.Sound : Mode → Prop
  | .word text => ∀ c ∈ text.toList, WordChar c
  | .symbol text => text ∈ symbols
  | .lineComment => True
  | .blockComment _ => True

/-- What reading gives: sound lexemes, and a mode that is sound again. -/
structure Sound (read : List Lexeme × Mode) : Prop where
  lexemes : ∀ lexeme ∈ read.1, lexeme.Sound
  mode : read.2.Sound

theorem sound_idle : Mode.idle.Sound := by
  simp [Mode.Sound]

theorem sound_flush {mode : Mode} (hmode : mode.Sound) :
    ∀ lexeme ∈ mode.flush, lexeme.Sound := by
  intro lexeme hmem
  cases mode with
  | word text =>
      by_cases hempty : text = ""
      · simp [Mode.flush, hempty] at hmem
      · obtain rfl : lexeme = ⟨.value, text⟩ := by simpa [Mode.flush, hempty] using hmem
        exact ⟨hempty, hmode⟩
  | symbol text =>
      obtain rfl : lexeme = ⟨.operator, text⟩ := by simpa [Mode.flush] using hmem
      exact hmode
  | lineComment => simp [Mode.flush] at hmem
  | blockComment star => simp [Mode.flush] at hmem

/-- A mark of punctuation is no value, no operator and no line end. -/
theorem ne_of_punctuation {c : Char} {kind : TokenKind}
    (hkind : TokenKind.ofPunctuation? c = some kind) :
    kind ≠ .value ∧ kind ≠ .operator ∧ kind ≠ .lineEnd := by
  unfold TokenKind.ofPunctuation? at hkind
  split at hkind <;> cases hkind <;> decide

theorem sound_punctuation {c : Char} {kind : TokenKind}
    (hkind : TokenKind.ofPunctuation? c = some kind) (text : String) :
    (⟨kind, text⟩ : Lexeme).Sound := by
  unfold TokenKind.ofPunctuation? at hkind
  split at hkind <;> cases hkind <;> exact trivial

theorem sound_begin {mode : Mode} (hmode : mode.Sound) {c : Char} (hfeed : c ≠ '\n') :
    Sound (begin mode c) := by
  have hflush := sound_flush hmode
  unfold begin
  split
  next kind hkind =>
    refine ⟨?_, sound_idle⟩
    intro lexeme hmem
    rcases List.mem_append.mp hmem with hold | hnew
    · exact hflush lexeme hold
    · obtain rfl := List.mem_singleton.mp hnew
      exact sound_punctuation hkind _
  next hpunctuation =>
    split
    next hoperator =>
      refine ⟨hflush, ?_⟩
      exact List.mem_append_left _ (List.mem_map_of_mem hoperator)
    next hoperator =>
      have hupper := (WordChar.of_mem_upperCase hpunctuation hoperator hfeed).2
      split
      next text =>
        refine ⟨by simp, ?_⟩
        intro found hmem
        rw [String.toList_append, String.toList_ofList] at hmem
        rcases List.mem_append.mp hmem with hold | hnew
        · exact hmode found hold
        · exact hupper found hnew
      next other hother =>
        refine ⟨hflush, ?_⟩
        intro found hmem
        rw [String.toList_ofList] at hmem
        exact hupper found hmem

theorem sound_step {mode : Mode} (hmode : mode.Sound) {c : Char} (hfeed : c ≠ '\n') :
    Sound (step mode c) := by
  unfold step
  split
  next => exact ⟨by simp, trivial⟩
  next star =>
    split
    · exact ⟨by simp, sound_idle⟩
    · exact ⟨by simp, trivial⟩
  next text =>
    split
    · exact ⟨by simp, trivial⟩
    · split
      · exact ⟨by simp, trivial⟩
      · split
        next hcompound =>
          refine ⟨by simp, ?_⟩
          exact List.mem_append_right _ hcompound
        next => exact sound_begin hmode hfeed
  next text => exact sound_begin hmode hfeed

theorem sound_run {mode : Mode} (hmode : mode.Sound) {text : List Char} (hfeed : '\n' ∉ text) :
    Sound (run mode text) := by
  induction text generalizing mode with
  | nil => exact ⟨by simp, hmode⟩
  | cons c rest ih =>
      have hstep := sound_step hmode (c := c) (by rintro rfl; simp at hfeed)
      have hrest := ih hstep.mode (by simp_all)
      rw [run_cons]
      refine ⟨?_, hrest.mode⟩
      intro lexeme hmem
      rcases List.mem_append.mp hmem with hfirst | hothers
      · exact hstep.lexemes lexeme hfirst
      · exact hrest.lexemes lexeme hothers

private theorem sound_close {lexemes : List Lexeme} {mode : Mode}
    (hread : Sound (lexemes, mode)) : ∀ lexeme ∈ close lexemes mode, lexeme.Sound := by
  intro lexeme hmem
  unfold close at hmem
  split at hmem
  · simp at hmem
  · rcases List.mem_append.mp hmem with hfound | hend
    · rcases List.mem_append.mp hfound with hdone | hlast
      · exact hread.lexemes lexeme hdone
      · exact sound_flush hread.mode lexeme hlast
    · obtain rfl := List.mem_singleton.mp hend
      exact trivial

theorem sound_line (inComment : Bool) {text : String} (hfeed : '\n' ∉ text.toList) :
    ∀ lexeme ∈ (line inComment text).lexemes, lexeme.Sound := by
  have hdrop : '\n' ∉ Text.dropReturn text.toList := by
    rw [Text.dropReturn]
    split
    · exact fun hmem => hfeed ((List.dropLast_subset _) hmem)
    · exact hfeed
  have hstart : (if inComment then Mode.blockComment false else Mode.idle).Sound := by
    cases inComment with
    | false => exact sound_idle
    | true => trivial
  have hread := sound_run hstart hdrop
  simp only [line]
  split
  next lexemes star hrun =>
    rw [hrun] at hread
    exact hread.lexemes
  next lexemes mode hcomment hrun =>
    rw [hrun] at hread
    exact sound_close hread

end Scan

theorem TokenStream.sound_tokensOfLines (lineNumber : Nat) (inComment : Bool)
    {lines : List String} (hfeed : ∀ line ∈ lines, '\n' ∉ line.toList) :
    ∀ token ∈ tokensOfLines lineNumber inComment lines, token.lexeme.Sound := by
  induction lines generalizing lineNumber inComment with
  | nil => simp [tokensOfLines]
  | cons line rest ih =>
      intro token hmem
      rcases List.mem_append.mp hmem with hfirst | hothers
      · obtain ⟨lexeme, hlexeme, rfl⟩ := List.mem_map.mp hfirst
        exact Scan.sound_line inComment (hfeed line (.head _)) lexeme hlexeme
      · exact ih _ _ (fun other hother => hfeed other (.tail _ hother)) token hothers

end SignalScript
