import SignalScript.Proofs.Comment.Blank

/-!
# The tokens of lines with comments

Comments leave no trace in the tokens but for spaces and line ends: lines, and the
lines with their comments blanked, have the same other tokens.  A line end closes
exactly the lines that have another token and do not end inside a block comment.
-/

namespace SignalScript

namespace Comment

/-- The lines with a space for every character of a comment. -/
def blankLines : Bool → List String → List String
  | _, [] => []
  | inside, line :: rest =>
    String.ofList (blankLine inside line.toList) ::
      blankLines (openBehind inside line.toList) rest

/-- Whether a block comment goes on behind lines. -/
def openAfter (inside : Bool) (lines : List String) : Bool :=
  lines.foldl (fun inside line => openBehind inside line.toList) inside

theorem length_blankLines (inside : Bool) (lines : List String) :
    (blankLines inside lines).length = lines.length := by
  induction lines generalizing inside with
  | nil => rfl
  | cons line rest ih => simp [blankLines, ih]

end Comment

/-- Whether tokens of a kind only tell how a text is laid out. -/
def TokenKind.isLayout : TokenKind → Bool
  | .separator | .tab | .lineEnd => true
  | _ => false

namespace Scan

open Comment (blankLine openBehind)
open Lexeme (Spaced)

/-- The lexemes of a line, but for its end. -/
def found (inside : Bool) (text : String) : List Lexeme :=
  let read := run (if inside then .blockComment false else .idle) (Text.dropReturn text.toList)
  read.1 ++ read.2.flush

private theorem shadows_start (inside : Bool) (text : List Char) :
    Shadows inside (if inside then .blockComment false else .idle) .idle text := by
  cases inside with
  | false => exact .outside rfl (by simp)
  | true => exact .inside (by simp)

/-- The comments of a line end where the scanner says. -/
theorem line_eq (inside : Bool) (text : String) :
    line inside text =
      { lexemes := found inside text ++
          if found inside text ≠ [] ∧ openBehind inside text.toList = false then [.lineEnd]
          else []
        inComment := openBehind inside text.toList } := by
  have hending := (blanked_run (shadows_start inside (Text.dropReturn text.toList))).ending
  rw [Comment.openBehind_dropReturn] at hending
  simp only [line, found]
  split
  next lexemes star hrun =>
    rw [hrun] at hending
    obtain hopen : openBehind inside text.toList = true := hending.symm
    simp [hrun, hopen, Mode.flush]
  next lexemes mode hmode hrun =>
    rw [hrun] at hending
    have hclosed : openBehind inside text.toList = false := by
      rw [← hending]
      cases mode with
      | blockComment star => exact absurd rfl (hmode star)
      | word text => rfl
      | symbol text => rfl
      | lineComment => rfl
    simp only [hrun, hclosed, and_true, close]
    cases lexemes ++ mode.flush with
    | nil => rfl
    | cons first others => rfl

theorem inComment_line (inside : Bool) (text : String) :
    (line inside text).inComment = openBehind inside text.toList := by
  rw [line_eq]

/-- No comment goes on behind a line whose comments are blanked. -/
theorem openBehind_blankLine (inside : Bool) (text : List Char) :
    openBehind false (blankLine inside text) = false := by
  have houtside := (blanked_run (shadows_start inside text)).outside
  rw [← (blanked_run (shadows_start false (blankLine inside text))).ending]
  simp only [Bool.false_eq_true, if_false]
  cases hmode : (run .idle (blankLine inside text)).2 with
  | word text => rfl
  | symbol text => rfl
  | lineComment => rfl
  | blockComment star => simp [hmode, Mode.isComment] at houtside

/-- A line whose comments are blanked ends outside of comments. -/
theorem line_blankLine (inside : Bool) (text : String) :
    let blanked := String.ofList (blankLine inside text.toList)
    line false blanked =
      { lexemes := found false blanked ++ if found false blanked ≠ [] then [.lineEnd] else []
        inComment := false } := by
  intro blanked
  have hclosed : openBehind false blanked.toList = false := by
    rw [String.toList_ofList]
    exact openBehind_blankLine inside text.toList
  simp only [line_eq, hclosed, and_true]

/-- Blanking the comments of a line puts spaces between its lexemes. -/
theorem spaced_found (inside : Bool) (text : String) :
    Spaced (found inside text) (found false (String.ofList (blankLine inside text.toList))) := by
  have hblanked := blanked_run (shadows_start inside (Text.dropReturn text.toList))
  simp only [found, String.toList_ofList, Bool.false_eq_true, if_false]
  rcases Comment.dropReturn_blankLine inside text.toList with hdrop | hdrop
  · rw [hdrop]
    exact hblanked.spaced
  · have hspace := hblanked.spaced.append (.space .nil)
    rw [hdrop, run_append, run_cons, step_space hblanked.outside]
    simpa [Mode.flush] using hspace

/-! ## Line ends -/

private theorem flush_ne_lineEnd (mode : Mode) :
    ∀ lexeme ∈ mode.flush, lexeme.kind ≠ .lineEnd := by
  intro lexeme hmem
  cases mode with
  | word text =>
      by_cases hempty : text = ""
      · simp [Mode.flush, hempty] at hmem
      · simp only [Mode.flush, if_neg hempty, List.mem_singleton] at hmem
        simp [hmem]
  | symbol text =>
      simp only [Mode.flush, List.mem_singleton] at hmem
      simp [hmem]
  | lineComment => simp [Mode.flush] at hmem
  | blockComment star => simp [Mode.flush] at hmem

private theorem begin_ne_lineEnd (mode : Mode) (c : Char) :
    ∀ lexeme ∈ (begin mode c).1, lexeme.kind ≠ .lineEnd := by
  unfold begin
  split
  next kind hkind =>
    intro lexeme hmem
    rcases List.mem_append.mp hmem with hold | hnew
    · exact flush_ne_lineEnd mode lexeme hold
    · obtain rfl := List.mem_singleton.mp hnew
      exact (ne_of_punctuation hkind).2.2
  next hpunctuation =>
    split
    · exact flush_ne_lineEnd mode
    · split
      · simp
      · exact flush_ne_lineEnd _

private theorem step_ne_lineEnd (mode : Mode) (c : Char) :
    ∀ lexeme ∈ (step mode c).1, lexeme.kind ≠ .lineEnd := by
  unfold step
  split
  · simp
  · split
    · simp
    · simp
  · split
    · simp
    · split
      · simp
      · split
        · simp
        · exact begin_ne_lineEnd _ c
  · exact begin_ne_lineEnd _ c

private theorem run_ne_lineEnd (mode : Mode) (text : List Char) :
    ∀ lexeme ∈ (run mode text).1, lexeme.kind ≠ .lineEnd := by
  induction text generalizing mode with
  | nil => simp
  | cons c rest ih =>
      intro lexeme hmem
      rw [run_cons] at hmem
      rcases List.mem_append.mp hmem with hfirst | hothers
      · exact step_ne_lineEnd mode c lexeme hfirst
      · exact ih _ lexeme hothers

theorem found_ne_lineEnd (inside : Bool) (text : String) :
    ∀ lexeme ∈ found inside text, lexeme.kind ≠ .lineEnd := by
  intro lexeme hmem
  rcases List.mem_append.mp hmem with hrun | hflush
  · exact run_ne_lineEnd _ _ lexeme hrun
  · exact flush_ne_lineEnd _ lexeme hflush

/-- Without the line end, what was found is left. -/
theorem filter_ne_lineEnd {found : List Lexeme} (hkinds : ∀ lexeme ∈ found, lexeme.kind ≠ .lineEnd)
    (closed : Prop) [Decidable closed] :
    (found ++ if closed then [Lexeme.lineEnd] else []).filter (·.kind != .lineEnd) = found := by
  have hkept : found.filter (·.kind != .lineEnd) = found :=
    List.filter_eq_self.mpr fun lexeme hmem => by simpa using hkinds lexeme hmem
  rw [List.filter_append, hkept]
  split
  · simp [Lexeme.lineEnd]
  · exact List.append_nil _

end Scan

namespace TokenStream

open Comment (blankLine blankLines openBehind openAfter)

theorem locate_cons (line : Nat) (lexeme : Lexeme) (lexemes : List Lexeme) :
    locate line (lexeme :: lexemes) = lexeme.onLine line :: locate line lexemes := rfl

theorem locate_append (line : Nat) (left right : List Lexeme) :
    locate line (left ++ right) = locate line left ++ locate line right :=
  List.map_append

/-- Lines give their tokens one after the other; what was before only tells whether they
begin in a comment. -/
theorem tokensOfLines_append (lineNumber : Nat) (inside : Bool) (first second : List String) :
    tokensOfLines lineNumber inside (first ++ second) =
      tokensOfLines lineNumber inside first ++
        tokensOfLines (lineAfter lineNumber first.length) (openAfter inside first) second := by
  induction first generalizing lineNumber inside with
  | nil => rfl
  | cons text rest ih =>
      rw [List.cons_append, tokensOfLines, ih, tokensOfLines, Scan.inComment_line,
        List.append_assoc]
      rfl

theorem map_lexeme_locate (line : Nat) (lexemes : List Lexeme) :
    (locate line lexemes).map Token.lexeme = lexemes := by
  simp [locate, Function.comp_def]

/-! ## Lines one by one -/

private theorem line_of_mem_locate {line : Nat} {lexemes : List Lexeme} {token : Token}
    (hmem : token ∈ locate line lexemes) : token.line = line := by
  obtain ⟨lexeme, -, rfl⟩ := List.mem_map.mp hmem
  rfl

/-- The tokens that a line gives behind a number of others: what is read from one line
more. -/
def tokensAt (lines : List String) (offset index : Nat) : List Token :=
  (ofLines (lines.take (index + 1)) offset).toList.drop
    (ofLines (lines.take index) offset).toList.length

/-- The line behind some others is read as the scanner reads it. -/
private theorem toList_take_add_one (lines : List String) (offset index : Nat) :
    (ofLines (lines.take (index + 1)) offset).toList =
      (ofLines (lines.take index) offset).toList ++
        locate (lineAfter offset (index + 1)) ((lines[index]?.map fun line =>
          (Scan.line (openAfter false (lines.take index)) line).lexemes).getD []) := by
  have hlist : ∀ lines, (ofLines lines offset).toList = tokensOfLines offset false lines :=
    fun _ => rfl
  rw [hlist, hlist, List.take_add_one, tokensOfLines_append]
  congr 1
  cases hline : lines[index]? with
  | none => rfl
  | some line =>
      have hlength : (lines.take index).length = index := by
        obtain ⟨hlt, -⟩ := List.getElem?_eq_some_iff.mp hline
        exact List.length_take_of_le (Nat.le_of_lt hlt)
      rw [hlength, Option.toList_some, Option.map_some, Option.getD_some, tokensOfLines,
        tokensOfLines, List.append_nil, nextLine_lineAfter]

theorem tokensAt_eq (lines : List String) (offset index : Nat) :
    tokensAt lines offset index =
      locate (lineAfter offset (index + 1)) ((lines[index]?.map fun line =>
        (Scan.line (openAfter false (lines.take index)) line).lexemes).getD []) := by
  rw [tokensAt, toList_take_add_one, List.drop_left]

/-- All tokens are those of the lines, one after the other. -/
theorem toList_eq_flatMap_tokensAt (lines : List String) (offset : Nat) :
    (ofLines lines offset).toList =
      (List.range lines.length).flatMap (tokensAt lines offset) := by
  have hfirst : ∀ count, (ofLines (lines.take count) offset).toList =
      (List.range count).flatMap (tokensAt lines offset) := by
    intro count
    induction count with
    | zero => rfl
    | succ count ih =>
        rw [toList_take_add_one, ← tokensAt_eq, ih, List.range_succ, List.flatMap_append,
          List.flatMap_singleton]
  have hall := hfirst lines.length
  rwa [List.take_length] at hall

theorem filter_locate (keep : Lexeme → Bool) (line : Nat) (lexemes : List Lexeme) :
    (locate line lexemes).filter (fun token => keep token.lexeme) =
      locate line (lexemes.filter keep) := by
  simp [locate, List.filter_map, Function.comp_def]

/-- What is no layout is the same without comments. -/
private theorem filter_blankLines (lineNumber : Nat) (inside : Bool) (lines : List String) :
    (tokensOfLines lineNumber inside lines).filter (fun token => !token.kind.isLayout) =
      (tokensOfLines lineNumber false (blankLines inside lines)).filter
        (fun token => !token.kind.isLayout) := by
  have hline : ∀ (inside : Bool) (line : String),
      (Scan.line inside line).lexemes.filter (fun lexeme => !lexeme.kind.isLayout) =
        (Scan.found inside line).filter (fun lexeme => !lexeme.kind.isLayout) := by
    intro inside line
    rw [Scan.line_eq, List.filter_append]
    split
    · exact List.append_nil _
    · exact List.append_nil _
  induction lines generalizing lineNumber inside with
  | nil => rfl
  | cons line rest ih =>
      have hopen : (Scan.line false (String.ofList (blankLine inside line.toList))).inComment =
          false := by
        rw [Scan.line_blankLine]
      have hfirst := filter_locate (fun lexeme => !lexeme.kind.isLayout) (nextLine lineNumber)
      simp only [Token.lexeme] at hfirst
      simp only [blankLines, tokensOfLines, List.filter_append, hfirst, hline, hopen]
      rw [(Scan.spaced_found inside line).filter_eq rfl, ih, Scan.line_eq]

/-- The tokens of a line are what is found in it and, if that is something and no
comment goes on, a line end. -/
private theorem exists_found (lines : List String) (offset index : Nat) :
    ∃ found : List Lexeme, (∀ lexeme ∈ found, lexeme.kind ≠ .lineEnd) ∧
      tokensAt lines offset index = locate (lineAfter offset (index + 1)) (found ++
        if found ≠ [] ∧ openAfter false (lines.take (index + 1)) = false then [.lineEnd]
        else []) := by
  rw [tokensAt_eq]
  cases hline : lines[index]? with
  | none => exact ⟨[], by simp, by simp⟩
  | some line =>
      have hopen : openAfter false (lines.take (index + 1)) =
          openBehind (openAfter false (lines.take index)) line.toList := by
        rw [List.take_add_one, hline, openAfter, List.foldl_append]
        rfl
      refine ⟨Scan.found (openAfter false (lines.take index)) line,
        Scan.found_ne_lineEnd _ line, ?_⟩
      rw [Option.map_some, Option.getD_some, Scan.line_eq, hopen]

/-- Comments are erased: but for layout, lines have the tokens that they have with their
comments blanked, and a line is closed by a line end exactly if it has another token
and no block comment goes on behind it. -/
theorem comments_erased (lines : List String) (offset : Nat) :
    let tokens := (ofLines lines offset).toList
    tokens.filter (fun token => !token.kind.isLayout) =
        (ofLines (blankLines false lines) offset).toList.filter
          (fun token => !token.kind.isLayout) ∧
      tokens = (List.range lines.length).flatMap (tokensAt lines offset) ∧
      ∀ index,
        let number := lineAfter offset (index + 1)
        let own := tokensAt lines offset index
        let others := own.filter (·.kind != .lineEnd)
        (∀ token ∈ own, token.line = number) ∧
          own = others ++
            if others ≠ [] ∧ openAfter false (lines.take (index + 1)) = false then
              [Lexeme.lineEnd.onLine number]
            else [] := by
  refine ⟨filter_blankLines offset false lines, toList_eq_flatMap_tokensAt lines offset, ?_⟩
  intro index number own others
  obtain ⟨found, hkinds, hown⟩ : ∃ found : List Lexeme, _ ∧ own = locate number _ :=
    exists_found lines offset index
  refine ⟨fun token hmem => line_of_mem_locate (hown ▸ hmem), ?_⟩
  have hothers : others = locate number found := by
    have hfilter := filter_locate (·.kind != .lineEnd) number
    simp only [Token.lexeme] at hfilter
    simp only [others, hown]
    rw [hfilter, Scan.filter_ne_lineEnd hkinds]
  have hempty : others ≠ [] ↔ found ≠ [] := by
    rw [hothers]
    simp [locate]
  simp only [hempty]
  rw [hown, hothers]
  split
  · exact locate_append number found [.lineEnd]
  · simp only [List.append_nil]

end TokenStream

end SignalScript
