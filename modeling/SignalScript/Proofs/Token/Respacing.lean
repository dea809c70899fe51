import SignalScript.Proofs.Comment.Tokens
import SignalScript.Proofs.Token.Names

/-!
# Tokens with other blanks between them

The text of every token is read as that token again, so tokens can be written on one line
with any blanks behind them, and but for layout the line has the same tokens.  This needs
no list of the operators: an operator is collected from between two tokens, so reading it
again takes the same steps.
-/

namespace SignalScript

namespace Scan

/-- Whether reading what is being collected from between two tokens leads to the same
mode. -/
def Mode.Rereads (mode : Mode) : Prop :=
  mode.isComment = false → run .idle mode.text.toList = ([], mode)

end Scan

/-- Whether the text of a lexeme is read as that lexeme. -/
structure Lexeme.Rereads (lexeme : Lexeme) : Prop where
  outside : (Scan.run .idle lexeme.text.toList).2.isComment = false
  found : (Scan.run .idle lexeme.text.toList).1 ++ (Scan.run .idle lexeme.text.toList).2.flush =
    [lexeme]

namespace Scan

theorem rereads_idle : Mode.idle.Rereads :=
  fun _ => rfl

theorem Mode.Rereads.flush {mode : Mode} (hmode : mode.Rereads) :
    ∀ lexeme ∈ mode.flush, lexeme.Rereads := by
  intro lexeme hmem
  cases mode with
  | word text =>
      by_cases hempty : text = ""
      · simp [Mode.flush, hempty] at hmem
      · obtain rfl : lexeme = ⟨.value, text⟩ := by simpa [Mode.flush, hempty] using hmem
        have hrun : run .idle text.toList = ([], .word text) := hmode rfl
        constructor
        · rw [hrun]
          rfl
        · rw [hrun, Mode.flush, if_neg hempty]
          rfl
  | symbol text =>
      obtain rfl : lexeme = ⟨.operator, text⟩ := by simpa [Mode.flush] using hmem
      have hrun : run .idle text.toList = ([], .symbol text) := hmode rfl
      constructor
      · rw [hrun]
        rfl
      · rw [hrun]
        rfl
  | lineComment => simp [Mode.flush] at hmem
  | blockComment star => simp [Mode.flush] at hmem

/-- A mode that is collecting more text rereads if the text was added to it silently. -/
private theorem Mode.Rereads.extend {mode next : Mode} (hmode : mode.Rereads)
    (houtside : mode.isComment = false) {more : List Char} (hrun : run mode more = ([], next))
    (htext : next.text.toList = mode.text.toList ++ more) : next.Rereads := by
  intro _
  rw [htext, run_append, hmode houtside]
  exact hrun

/-- What reading gives: lexemes and a mode that are read again as they are. -/
structure Rereads (read : List Lexeme × Mode) : Prop where
  lexemes : ∀ lexeme ∈ read.1, lexeme.Rereads
  mode : read.2.Rereads

theorem rereads_begin {mode : Mode} (hmode : mode.Rereads) (houtside : mode.isComment = false)
    (c : Char) : Rereads (begin mode c) := by
  unfold begin
  split
  next kind hkind =>
    have hmark : Lexeme.Rereads ⟨kind, c.toString⟩ := by
      have hrun : run .idle c.toString.toList = ([⟨kind, c.toString⟩], .idle) := by
        have hstep : step .idle c = ([⟨kind, c.toString⟩], .idle) := step_punctuation rfl hkind
        simp [run_cons, hstep]
      constructor
      · rw [hrun]
        rfl
      · rw [hrun]
        rfl
    exact ⟨List.forall_mem_append.mpr ⟨hmode.flush, List.forall_mem_singleton.mpr hmark⟩,
      rereads_idle⟩
  next hpunctuation =>
    split
    next hoperator =>
      refine ⟨hmode.flush, ?_⟩
      have hrun : run .idle [c] = ([], .symbol c.toString) := by
        have hstep : step .idle c = ([], .symbol c.toString) := by
          simp [step, begin, hpunctuation, hoperator, Mode.flush]
        rw [run_cons, hstep]
        rfl
      exact rereads_idle.extend rfl hrun (by simp [Mode.text])
    next hoperator =>
      have hplain := (PlainChar.of_mem_upperCase hpunctuation hoperator).2
      split
      next text =>
        refine ⟨List.forall_mem_nil _, ?_⟩
        exact hmode.extend rfl (run_word text hplain) (by simp [Mode.text])
      next other hother =>
        refine ⟨hmode.flush, ?_⟩
        have hrun := run_word "" hplain
        rw [String.empty_append] at hrun
        exact rereads_idle.extend rfl hrun (by simp [Mode.text])

theorem rereads_step {mode : Mode} (hmode : mode.Rereads) (c : Char) : Rereads (step mode c) := by
  have hcomment : ∀ {next : Mode}, next.isComment = true → Rereads ([], next) := by
    intro next hnext
    exact ⟨List.forall_mem_nil _, fun houtside => by simp [hnext] at houtside⟩
  cases mode with
  | word text => exact rereads_begin hmode rfl c
  | symbol text =>
      simp only [step]
      split
      · exact hcomment rfl
      · split
        · exact hcomment rfl
        next hslash hstar =>
          split
          next hcompound =>
            have hrun : run (.symbol text) [c] = ([], .symbol (text.push c)) := by
              have hstep : step (.symbol text) c = ([], .symbol (text.push c)) := by
                simp only [step, if_neg hslash, if_neg hstar, if_pos hcompound]
              rw [run_cons, hstep]
              rfl
            exact ⟨List.forall_mem_nil _, hmode.extend rfl hrun (by simp [Mode.text])⟩
          · exact rereads_begin hmode rfl c
  | lineComment => exact hcomment rfl
  | blockComment star =>
      rw [step]
      split
      · exact ⟨List.forall_mem_nil _, rereads_idle⟩
      · exact hcomment rfl

theorem rereads_run {mode : Mode} (hmode : mode.Rereads) (text : List Char) :
    Rereads (run mode text) := by
  induction text generalizing mode with
  | nil => exact ⟨List.forall_mem_nil _, hmode⟩
  | cons c rest ih =>
      have hstep := rereads_step hmode c
      have hrest := ih hstep.mode
      rw [run_cons]
      exact ⟨List.forall_mem_append.mpr ⟨hstep.lexemes, hrest.lexemes⟩, hrest.mode⟩

/-- Every lexeme of a line but for its end is read again. -/
theorem rereads_found (inside : Bool) (text : String) :
    ∀ lexeme ∈ found inside text, lexeme.Rereads := by
  have hstart : (if inside then Mode.blockComment false else .idle).Rereads := by
    cases inside with
    | false => exact rereads_idle
    | true => exact fun houtside => by simp [Mode.isComment] at houtside
  have hread := rereads_run hstart (Text.dropReturn text.toList)
  exact List.forall_mem_append.mpr ⟨hread.lexemes, hread.mode.flush⟩

/-! ## Blanks -/

/-- Whether text is made of blanks, at least one. -/
def IsGap (gap : List Char) : Prop :=
  gap ≠ [] ∧ ∀ c ∈ gap, c = ' ' ∨ c = '\t'

instance (gap : List Char) : Decidable (IsGap gap) :=
  decidable_of_iff (gap ≠ [] ∧ (gap.all fun c => decide (c = ' ' ∨ c = '\t')) = true) (by
    simp [IsGap])

/-- Blanks end what stands before them, and are layout. -/
theorem run_gap {mode : Mode} (houtside : mode.isComment = false) {gap : List Char}
    (hgap : IsGap gap) :
    ∃ blanks, (∀ lexeme ∈ blanks, lexeme.kind.isLayout = true) ∧
      run mode gap = (mode.flush ++ blanks, .idle) := by
  obtain ⟨hne, hblanks⟩ := hgap
  -- The first blank ends what stands before, and for the others nothing does.
  induction gap generalizing mode with
  | nil => exact absurd rfl hne
  | cons c rest ih =>
      obtain ⟨kind, hkind, hlayout⟩ :
          ∃ kind, TokenKind.ofPunctuation? c = some kind ∧ kind.isLayout = true := by
        rcases hblanks c (.head _) with rfl | rfl
        · exact ⟨.separator, rfl, rfl⟩
        · exact ⟨.tab, rfl, rfl⟩
      have hstep := step_punctuation houtside hkind
      cases rest with
      | nil =>
          refine ⟨[⟨kind, c.toString⟩], List.forall_mem_singleton.mpr hlayout, ?_⟩
          rw [run_cons, hstep, run_nil, List.append_nil]
      | cons next others =>
          obtain ⟨blanks, hlayouts, hrun⟩ :=
            @ih .idle rfl (List.cons_ne_nil _ _) fun c hmem => hblanks c (.tail _ hmem)
          refine ⟨⟨kind, c.toString⟩ :: blanks, List.forall_mem_cons.mpr ⟨hlayout, hlayouts⟩, ?_⟩
          rw [run_cons, hstep, hrun, List.append_assoc]
          rfl

/-- Lexemes on one line, each with a text behind it. -/
def writtenText (written : List (Lexeme × String)) : String :=
  String.join (written.map fun entry => entry.1.text ++ entry.2)

/-- Reading lexemes that are written with blanks behind them gives these lexemes. -/
theorem run_writtenText {written : List (Lexeme × String)}
    (hrereads : ∀ entry ∈ written, entry.1.Rereads)
    (hgaps : ∀ entry ∈ written, IsGap entry.2.toList) :
    (run .idle (writtenText written).toList).2 = .idle ∧
      (run .idle (writtenText written).toList).1.filter (fun lexeme => !lexeme.kind.isLayout) =
        (written.map Prod.fst).filter (fun lexeme => !lexeme.kind.isLayout) := by
  induction written with
  | nil => exact ⟨rfl, rfl⟩
  | cons entry rest ih =>
      obtain ⟨hlast, hfound⟩ := ih (fun other hmem => hrereads other (.tail _ hmem))
        fun other hmem => hgaps other (.tail _ hmem)
      have hfirst := hrereads entry (.head _)
      obtain ⟨blanks, hlayout, hgap⟩ := run_gap hfirst.outside (hgaps entry (.head _))
      have htext : (writtenText (entry :: rest)).toList =
          entry.1.text.toList ++ (entry.2.toList ++ (writtenText rest).toList) := by
        simp [writtenText]
      have hblanks : blanks.filter (fun lexeme => !lexeme.kind.isLayout) = [] :=
        List.filter_eq_nil_iff.mpr fun lexeme hmem => by simp [hlayout lexeme hmem]
      rw [htext, run_append, run_append, hgap]
      refine ⟨hlast, ?_⟩
      have hassoc : (run .idle entry.1.text.toList).1 ++
          ((run .idle entry.1.text.toList).2.flush ++ blanks ++
            (run .idle (writtenText rest).toList).1) =
          [entry.1] ++ (blanks ++ (run .idle (writtenText rest).toList).1) := by
        rw [← hfirst.found]
        simp only [List.append_assoc]
      rw [hassoc, List.filter_append, List.filter_append, hblanks, hfound, List.nil_append,
        List.map_cons, ← List.filter_append]
      rfl

private theorem getLast?_writtenText {written : List (Lexeme × String)}
    (hgaps : ∀ entry ∈ written, IsGap entry.2.toList) :
    (writtenText written).toList.getLast? ≠ some '\r' := by
  induction written with
  | nil => simp [writtenText]
  | cons entry rest ih =>
      obtain ⟨hne, hblanks⟩ := hgaps entry (.head _)
      have hrest := ih fun other hmem => hgaps other (.tail _ hmem)
      have htext : (writtenText (entry :: rest)).toList =
          entry.1.text.toList ++ entry.2.toList ++ (writtenText rest).toList := by
        simp [writtenText]
      rw [htext, List.getLast?_append]
      cases hlast : (writtenText rest).toList.getLast? with
      | some c => rwa [Option.some_or, ← hlast]
      | none =>
          rw [Option.none_or, List.getLast?_append, List.getLast?_eq_some_getLast hne,
            Option.some_or, ← List.getLast?_eq_some_getLast hne]
          intro hreturn
          rcases hblanks '\r' (List.mem_of_getLast? hreturn) with hblank | hblank
          · simp at hblank
          · simp at hblank

end Scan

namespace TokenStream

open Scan (IsGap Mode writtenText)

/-- What is no layout in lines is read again. -/
private theorem rereads_tokensOfLines (lineNumber : Nat) (inside : Bool) (lines : List String) :
    ∀ token ∈ tokensOfLines lineNumber inside lines, token.kind.isLayout = false →
      token.lexeme.Rereads := by
  induction lines generalizing lineNumber inside with
  | nil => exact nofun
  | cons text rest ih =>
      intro token hmem hlayout
      rcases List.mem_append.mp hmem with hfirst | hothers
      · obtain ⟨lexeme, hlexeme, rfl⟩ := List.mem_map.mp hfirst
        rw [Scan.line_eq] at hlexeme
        rcases List.mem_append.mp hlexeme with hfound | hend
        · exact Scan.rereads_found inside text lexeme hfound
        · split at hend
          · obtain rfl := List.mem_singleton.mp hend
            cases hlayout
          · cases hend
      · exact ih _ _ token hothers hlayout

/-- The tokens of lines, but for layout, can be written on one line with any blanks behind
them: that line has the same tokens. -/
theorem lexemes_respaced (lines : List String) (offset number : Nat)
    {written : List (Lexeme × String)}
    (hwritten : written.map Prod.fst =
      ((ofLines lines offset).toList.map Token.lexeme).filter
        (fun lexeme => !lexeme.kind.isLayout))
    (hgaps : ∀ entry ∈ written, IsGap entry.2.toList) :
    ((ofLines [writtenText written] number).toList.map Token.lexeme).filter
      (fun lexeme => !lexeme.kind.isLayout) = written.map Prod.fst := by
  have hmem : ∀ entry ∈ written, entry.1.Rereads := by
    intro entry hentry
    have hfirst : entry.1 ∈ written.map Prod.fst := List.mem_map_of_mem hentry
    rw [hwritten] at hfirst
    obtain ⟨hlexeme, hlayout⟩ := List.mem_filter.mp hfirst
    obtain ⟨token, htoken, hentry⟩ := List.mem_map.mp hlexeme
    rw [← hentry] at hlayout ⊢
    have hkind : token.kind.isLayout = false := by simpa [Token.lexeme] using hlayout
    exact rereads_tokensOfLines offset false lines token htoken hkind
  obtain ⟨hidle, hread⟩ := Scan.run_writtenText hmem hgaps
  have hdrop : Text.dropReturn (writtenText written).toList = (writtenText written).toList := by
    rw [Text.dropReturn, if_neg (Scan.getLast?_writtenText hgaps)]
  have hfound : Scan.found false (writtenText written) =
      (Scan.run .idle (writtenText written).toList).1 := by
    simp [Scan.found, hdrop, hidle, Mode.flush]
  have htokens : (ofLines [writtenText written] number).toList.map Token.lexeme =
      (Scan.line false (writtenText written)).lexemes := by
    have hlist : (ofLines [writtenText written] number).toList =
        locate (nextLine number) (Scan.line false (writtenText written)).lexemes :=
      List.append_nil _
    rw [hlist, map_lexeme_locate]
  have hkept : (written.map Prod.fst).filter (fun lexeme => !lexeme.kind.isLayout) =
      written.map Prod.fst := by
    rw [hwritten, List.filter_filter]
    simp only [Bool.and_self]
  rw [htokens, Scan.line_eq, List.filter_append, hfound, hread, hkept]
  split
  · exact List.append_nil _
  · exact List.append_nil _

/-- What stood around a comment comes to stand on one line. -/
theorem lexemes_respaced_comment :
    let written : List (Lexeme × String) :=
      [(⟨.value, "XSS"⟩, " "), (⟨.operator, "=="⟩, "\t"), (⟨.operator, "/"⟩, "  "),
        (⟨.operator, "#"⟩, " "), (⟨.operator, "/="⟩, "\t "), (⟨.statementEnd, ";"⟩, " ")]
    ((ofLines [Scan.writtenText written] 7).toList.map Token.lexeme).filter
      (fun lexeme => !lexeme.kind.isLayout) = written.map Prod.fst := by
  intro written
  refine lexemes_respaced ["xß==/ /* a ; b", "+ */#/=; // c", "\r"] 3 7 ?_ ?_
  · decide +kernel
  · decide +kernel

end TokenStream

end SignalScript
