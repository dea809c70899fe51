import SignalScript.Proofs.Comment.Names
import SignalScript.Proofs.Comment.Source
import SignalScript.Proofs.Parser.Scripts

/-!
# Parsing without comments

A text and the text with its comments blanked are parsed to the same scripts or the same
error, unless a block comment goes on over the end of a line inside the name of a script.
The line end is then part of the comment, and the name goes on behind it; in the blanked
text the name ends with the line.
-/

namespace SignalScript

open Comment (openBehind blankLine blankLines)
open Lexeme (Spaced)
open Region (Fits Follows Differ)
open TokenStream (locate locate_cons locate_append tokensOfLines)

/-- Whether a comment stands inside the name of a script: behind one of the lines a block
comment is open while a name is read, and the name goes on. -/
def commentInName (assembler : Assembler) (lineNumber : Nat) (inside : Bool) :
    List String → Bool
  | [] => false
  | line :: rest =>
    match assembler.feed (locate (nextLine lineNumber) (Scan.line inside line).lexemes) with
    | .error _ => false
    | .ok next =>
      let opened := openBehind inside line.toList
      opened && next.readsName && nameGoesOn (tokensOfLines (nextLine lineNumber) opened rest) ||
        commentInName next (nextLine lineNumber) opened rest

/-- A relation of results that has to be found out for what follows the same scripts. -/
structure Shares (related : List (Except ParseError Script) → List (Except ParseError Script) →
    Prop) : Prop where
  error (error : ParseError) : related [.error error] [.error error]
  script (script : Script) {results others : List (Except ParseError Script)}
    (hrest : related results others) : related (.ok script :: results) (.ok script :: others)

theorem shares_eq : Shares Eq where
  error _ := rfl
  script _ _ _ hrest := congrArg _ hrest

theorem shares_differ : Shares Differ where
  error error scripts hscripts := by
    cases scripts with
    | nil => cases hscripts
    | cons first rest => simp at hscripts
  script script results others hrest scripts hscripts hothers := by
    cases scripts with
    | nil => cases hscripts
    | cons first rest =>
        exact hrest rest (List.cons.inj hscripts).2 (List.cons.inj hothers).2

/-! ## One line -/

variable {related : List (Except ParseError Script) → List (Except ParseError Script) → Prop}
variable {options : Options} {place : Region.Place} {assembler other : Assembler}

/-- Spaces between the lexemes of a line make no difference. -/
private theorem Shares.spaced (hshares : Shares related) (hfits : Fits options place assembler)
    {endLine number : Nat} {tight loose : List Lexeme} (hspaced : Spaced tight loose)
    {tokens others : List Token}
    (hfollows : Follows (locate number tight ++ tokens) assembler other)
    (hrest : ∀ next shadow, assembler.feed (locate number tight) = .ok next →
      other.feed (locate number loose) = .ok shadow → (∃ place, Fits options place next) →
        Follows tokens next shadow →
          related (next.results endLine tokens) (shadow.results endLine others)) :
    related (assembler.results endLine (locate number tight ++ tokens))
      (other.results endLine (locate number loose ++ others)) := by
  induction hspaced generalizing place assembler other with
  | nil => exact hrest assembler other rfl rfl ⟨place, hfits⟩ hfollows
  | @cons tight loose lexeme hspaced ih =>
      have hagree := Region.agree_consume hfits (lexeme.onLine number)
      obtain ⟨hsame, hnext⟩ := hfollows.consume hfits
      rw [locate_cons, locate_cons, List.cons_append, List.cons_append]
      rcases hconsume : assembler.consume (lexeme.onLine number) with ⟨next, error | ended⟩
      · rw [hconsume] at hsame
        rw [Assembler.results_error hconsume, Assembler.results_error (Prod.ext rfl hsame)]
        exact hshares.error error
      · rw [hconsume] at hsame hnext hagree
        have hother : other.consume (lexeme.onLine number) =
          ((other.consume (lexeme.onLine number)).1, .ok ended) := Prod.ext rfl hsame
        have hothers := ih hagree.1 hnext fun last shadow hlast hshadow => by
          refine hrest last shadow ?_ ?_
          · rw [locate_cons, Assembler.feed_cons hconsume, hlast]
          · rw [locate_cons, Assembler.feed_cons hother, hshadow]
        cases ended with
        | none =>
            rw [Assembler.results_skip hconsume, Assembler.results_skip hother]
            exact hothers
        | some script =>
            rw [Assembler.results_script hconsume, Assembler.results_script hother]
            exact hshares.script script hothers
  | @space tight loose hspaced ih =>
      have hblank : other.consume (Lexeme.onLine ⟨.separator, " "⟩ number) = (other, .ok none) :=
        other.consume_filler (.inl rfl)
      rw [locate_cons, List.cons_append, Assembler.results_skip hblank]
      refine ih hfits hfollows fun next shadow hfeed hshadow => hrest next shadow hfeed ?_
      rw [locate_cons, Assembler.feed_cons hblank, hshadow]

/-- A line and the line with its comments blanked.  Behind the blanked one no name is
read. -/
private theorem Shares.line (hshares : Shares related) (hfits : Fits options place assembler)
    (inside : Bool) (line : String) {endLine number : Nat} {tokens others : List Token}
    (hname : assembler.readsName = true →
      nameGoesOn (locate number (Scan.line inside line).lexemes ++ tokens) = false)
    (hrest : ∀ next, assembler.feed (locate number (Scan.line inside line).lexemes) = .ok next →
      (∃ place, Fits options place next) →
        (next.readsName = true → nameGoesOn tokens = true →
          openBehind inside line.toList = true) →
          related (next.results endLine tokens) (next.endName.results endLine others)) :
    related
      (assembler.results endLine (locate number (Scan.line inside line).lexemes ++ tokens))
      (assembler.endName.results endLine
        (locate number (Scan.line false
          (String.ofList (blankLine inside line.toList))).lexemes ++ others)) := by
  have hspaced := Scan.spaced_found inside line
  have hstart : Follows (locate number (Scan.line inside line).lexemes ++ tokens) assembler
      assembler.endName := by
    cases hreads : assembler.readsName with
    | false => exact .inl (Assembler.endName_eq_self hreads)
    | true => exact .inr ⟨rfl, hname hreads⟩
  rw [Scan.line_blankLine]
  simp only [Scan.line_eq inside, locate_append, List.append_assoc] at hname hrest hstart ⊢
  generalize Scan.found inside line = found at *
  generalize Scan.found false (String.ofList (blankLine inside line.toList)) = wide at *
  refine hshares.spaced hfits hspaced hstart fun next shadow hfeed hshadow hplace hfollows => ?_
  have hended : shadow.endName = next.endName := by
    rcases hfollows with rfl | ⟨rfl, -⟩
    · rfl
    · exact Assembler.endName_endName next
  have hlineEnd : ∀ assembler : Assembler,
      assembler.consume (Lexeme.lineEnd.onLine number) = (assembler.endName, .ok none) :=
    fun assembler => assembler.consume_lineEnd rfl
  have hblanked : shadow.results endLine
      (locate number (if wide ≠ [] then [.lineEnd] else []) ++ others) =
        next.endName.results endLine others := by
    by_cases hwide : wide = []
    · subst hwide
      obtain rfl := hspaced.eq_nil
      obtain rfl : assembler = next := Except.ok.inj hfeed
      obtain rfl : assembler.endName = shadow := Except.ok.inj hshadow
      rfl
    · rw [if_pos hwide, locate_cons, List.cons_append,
        Assembler.results_skip (hlineEnd shadow), hended]
      rfl
  rw [hblanked]
  by_cases hends : found ≠ [] ∧ openBehind inside line.toList = false
  · rw [if_pos hends] at hrest ⊢
    obtain ⟨behind, hbehind⟩ := hplace
    have hagree := Region.agree_consume hbehind (Lexeme.lineEnd.onLine number)
    rw [hlineEnd next] at hagree
    rw [locate_cons, List.cons_append, Assembler.results_skip (hlineEnd next)]
    have hnamed := hrest next.endName ?_ ⟨_, hagree.1⟩ (by simp)
    · rwa [Assembler.endName_endName] at hnamed
    · rw [Assembler.feed_append hfeed, locate_cons, Assembler.feed_cons (hlineEnd next)]
      rfl
  · rw [if_neg hends] at hrest hname ⊢
    refine hrest next ?_ hplace fun hreads hgoes => ?_
    · rw [Assembler.feed_append hfeed]
      rfl
    · cases hopen : openBehind inside line.toList with
      | true => rfl
      | false =>
          obtain rfl : found = [] :=
            Decidable.byContradiction fun hne => hends ⟨hne, hopen⟩
          obtain rfl : assembler = next := Except.ok.inj hfeed
          have hstops : nameGoesOn tokens = false := hname hreads
          rw [hgoes] at hstops
          cases hstops

/-! ## All lines -/

private theorem text_ne_empty {token : Token} (hsound : token.lexeme.Sound)
    (hkind : token.kind = .value ∨ token.kind = .operator) : token.text ≠ "" := by
  have hsymbols : "" ∉ symbols := by decide
  rcases token with ⟨kind, text, line⟩
  rcases hkind with rfl | rfl
  · exact hsound.1
  · rintro rfl
    exact hsymbols hsound

/-- Lines and the lines with their comments blanked. -/
private theorem results_blankLines {lines : List String} (hfits : Fits options place assembler)
    (hfeed : ∀ line ∈ lines, '\n' ∉ line.toList) (lineNumber endLine : Nat) (inside : Bool)
    (hname : assembler.readsName = true →
      nameGoesOn (tokensOfLines lineNumber inside lines) = false) :
    let source := assembler.results endLine (tokensOfLines lineNumber inside lines)
    let blanked := assembler.endName.results endLine
      (tokensOfLines lineNumber false (blankLines inside lines))
    (commentInName assembler lineNumber inside lines = false → source = blanked) ∧
      (commentInName assembler lineNumber inside lines = true → Differ source blanked) := by
  induction lines generalizing place assembler lineNumber inside with
  | nil =>
      refine ⟨fun _ => ?_, by simp [commentInName]⟩
      simp only [tokensOfLines, blankLines, Assembler.results, Assembler.endName, Option.map_map]
      rfl
  | cons line rest ih =>
      have hopened : (Scan.line inside line).inComment = openBehind inside line.toList := by
        rw [Scan.line_eq]
      have hclosed : (Scan.line false (String.ofList (blankLine inside line.toList))).inComment =
          false := by
        rw [Scan.line_blankLine]
      have hothers : ∀ other ∈ rest, '\n' ∉ other.toList :=
        fun other hother => hfeed other (.tail _ hother)
      rw [tokensOfLines, hopened] at hname
      simp only [tokensOfLines, blankLines, hopened, hclosed]
      -- The comments stand in a name behind this line or behind one of the others.
      have hcut : ∀ next,
          assembler.feed (locate (nextLine lineNumber) (Scan.line inside line).lexemes) = .ok next →
            commentInName assembler lineNumber inside (line :: rest) =
              (openBehind inside line.toList && next.readsName &&
                nameGoesOn
                  (tokensOfLines (nextLine lineNumber) (openBehind inside line.toList) rest) ||
                commentInName next (nextLine lineNumber) (openBehind inside line.toList) rest) := by
        intro next hnext
        rw [commentInName, hnext]
      constructor
      · intro hnone
        refine shares_eq.line hfits inside line hname fun next hnext hplace hopen => ?_
        obtain ⟨behind, hbehind⟩ := hplace
        rw [hcut next hnext, Bool.or_eq_false_iff] at hnone
        refine (ih hbehind hothers _ _ fun hreads => ?_).1 hnone.2
        rw [Bool.eq_false_iff]
        intro hgoes
        have hhere := hnone.1
        rw [hreads, hgoes, hopen hreads hgoes] at hhere
        cases hhere
      · intro hsome
        refine shares_differ.line hfits inside line hname fun next hnext hplace hopen => ?_
        obtain ⟨behind, hbehind⟩ := hplace
        rw [hcut next hnext] at hsome
        by_cases hhere : next.readsName = true ∧ nameGoesOn
          (tokensOfLines (nextLine lineNumber) (openBehind inside line.toList) rest) = true
        · obtain ⟨hreads, hgoes⟩ := hhere
          obtain ⟨first, name, rfl⟩ := hbehind.heading hreads
          refine Region.differ_endName hbehind hgoes (fun token hmem hkind => ?_) endLine _
          exact text_ne_empty (TokenStream.sound_tokensOfLines _ _ hothers token hmem) hkind
        · refine (ih hbehind hothers _ _ fun hreads => ?_).2 ?_
          · rw [Bool.eq_false_iff]
            exact fun hgoes => hhere ⟨hreads, hgoes⟩
          · rcases Bool.or_eq_true_iff.mp hsome with hboth | hlater
            · simp only [Bool.and_eq_true] at hboth
              exact absurd ⟨hboth.1.2, hboth.2⟩ hhere
            · exact hlater

/-! ## Texts -/

/-- Whether a block comment of a text goes on over the end of a line inside the name of a
script. -/
def commentCutsName (options : Options) (source : String) : Bool :=
  commentInName (.ofOptions options) options.lineOffset false (Text.lines source)

/-- Comments do not change what is parsed unless one of them goes on over the end of a
line inside the name of a script.  If one does, a text that is parsed is not parsed to the
same scripts without its comments. -/
theorem parseScriptsWith_blankComments (options : Options) (source : String) :
    (commentCutsName options source = false →
        parseScriptsWith options (blankComments source) = parseScriptsWith options source) ∧
      (commentCutsName options source = true → ∀ scripts,
        parseScriptsWith options source = .ok scripts →
          parseScriptsWith options (blankComments source) ≠ .ok scripts) := by
  have hfits : Fits options (.outside false) (.ofOptions options) := ⟨rfl, rfl, rfl, rfl⟩
  have hblanked : (Parser.ofLines (Text.lines (blankComments source)) options).results =
      (Assembler.ofOptions options).results
        (lineAfter options.lineOffset (Text.lines source).length)
        (tokensOfLines options.lineOffset false (blankLines false (Text.lines source))) := by
    rw [Parser.results_ofLines, Comment.lines_blankComments, Comment.length_blankLines]
  obtain ⟨hsame, hdiffer⟩ := results_blankLines hfits (Text.feed_not_mem_lines source)
    options.lineOffset (lineAfter options.lineOffset (Text.lines source).length) false
    fun hname => nomatch (show false = true from hname)
  rw [Assembler.endName_eq_self rfl, ← hblanked, ← Parser.results_ofLines] at hsame hdiffer
  constructor
  · intro hnone
    rw [parseScriptsWith, parseScriptsWith, Parser.scripts, Parser.scripts, hsame hnone]
  · intro hcut scripts hscripts
    rw [parseScriptsWith, Parser.scripts_ok_iff] at hscripts
    rw [parseScriptsWith, ne_eq, Parser.scripts_ok_iff]
    exact hdiffer hcut scripts hscripts

/-- A comment in a name that ends on its line, and one in a body that does not, change
nothing; one in a name that does not end on its line makes the name longer. -/
theorem parseScriptsWith_blankComments_lines :
    let source := "SCRIPT A/* */B\n IF (X/*\n*/) Y//;\n;"
    let other := "SCRIPT A/*\n*/+B(C);"
    blankComments source = "SCRIPT A     B\n IF (X  \n  ) Y   \n;" ∧
      commentCutsName {} source = false ∧
        parseScriptsWith {} (blankComments source) = parseScriptsWith {} source ∧
          commentCutsName {} other = true ∧
            (∃ scripts, parseScriptsWith {} other = .ok scripts ∧
              parseScriptsWith {} (blankComments other) ≠ .ok scripts) := by
  intro source other
  have hblanked : blankComments source = "SCRIPT A     B\n IF (X  \n  ) Y   \n;" := by
    decide +kernel
  have hnone : commentCutsName {} source = false := by decide +kernel
  have hcut : commentCutsName {} other = true := by decide +kernel
  have hparsed : (parseScriptsWith {} other).toOption =
      some [Script.ofPhrases "A+B" 1 [.statement 2 [.enclosure 2 [.value 2 "C"]]]] := by
    decide +kernel
  have hscripts := ok_of_toOption hparsed
  exact ⟨hblanked, hnone, (parseScriptsWith_blankComments {} source).1 hnone, hcut, _, hscripts,
    (parseScriptsWith_blankComments {} other).2 hcut _ hscripts⟩

/-- The name of a script is cut off where its comments are blanked. -/
theorem parseScripts_blankComments_ne :
    let source := "SCRIPT A/*\n*/B;"
    blankComments source = "SCRIPT A  \n  B;" ∧
      parseScripts source = .ok [Script.ofPhrases "AB" 1 []] ∧
        parseScripts (blankComments source) =
          .ok [Script.ofPhrases "A" 1 [.statement 2 [.value 2 "B"]]] ∧
          parseScripts (blankComments source) ≠ parseScripts source := by
  intro source
  have hblanked : blankComments source = "SCRIPT A  \n  B;" := by
    decide +kernel
  have hsource : (parseScripts source).toOption = some [Script.ofPhrases "AB" 1 []] := by
    decide +kernel
  have hparsed : (parseScripts (blankComments source)).toOption =
      some [Script.ofPhrases "A" 1 [.statement 2 [.value 2 "B"]]] := by
    decide +kernel
  refine ⟨hblanked, ok_of_toOption hsource, ok_of_toOption hparsed, fun hsame => ?_⟩
  rw [hsame, hsource] at hparsed
  revert hparsed
  decide

end SignalScript
