import SignalScript.Proofs.Render.RoundTrip

/-!
# Headers that are read again

A script that is written out is read as one script, whatever its name is.  The name
is read as it was written unless a comment begins in it or it ends with a carriage
return: the header does not tell these from a comment and the end of a line.
-/

namespace SignalScript

open Scan (Mode run characters)

/-- A header line, without its line end, whose name is scanned from its own
beginning. -/
private theorem run_header (name : List Char) :
    run .idle ("SCRIPT ".toList ++ name) =
      (⟨.value, "SCRIPT"⟩ :: ⟨.separator, " "⟩ :: (run .idle name).1, (run .idle name).2) := by
  have hword : run .idle "SCRIPT ".toList =
      ([⟨.value, "SCRIPT"⟩, ⟨.separator, " "⟩], .idle) := by
    decide +kernel
  rw [Scan.run_append, hword]
  rfl

private theorem line_header {header : String} {name : List Char}
    (hheader : Text.dropReturn header.toList = "SCRIPT ".toList ++ name) :
    (∃ star, (run .idle name).2 = .blockComment star ∧
      Scan.line false header =
        ⟨⟨.value, "SCRIPT"⟩ :: ⟨.separator, " "⟩ :: (run .idle name).1, true⟩) ∨
      Scan.line false header = ⟨⟨.value, "SCRIPT"⟩ :: ⟨.separator, " "⟩ ::
        (((run .idle name).1 ++ (run .idle name).2.flush) ++ [.lineEnd]), false⟩ := by
  simp only [Scan.line, hheader, Bool.false_eq_true, if_false, run_header]
  cases (run .idle name).2 with
  | blockComment star => exact .inl ⟨star, rfl, rfl⟩
  | word text => exact .inr rfl
  | symbol text => exact .inr rfl
  | lineComment => exact .inr rfl

/-- The name that is read from the header of a script. -/
def Script.readName (script : Script) : List Lexeme × Mode :=
  run .idle (Text.dropReturn (Text.dropReturn script.name.toList))

private theorem lines_render {script : Script} (hderived : script.Derived) :
    ∃ header : String,
      Text.dropReturn header.toList =
          "SCRIPT ".toList ++ Text.dropReturn (Text.dropReturn script.name.toList) ∧
        Text.lines script.render = header :: (script.tree.lines 1).map ScriptLine.source := by
  obtain ⟨phrases, _, _, hwritten⟩ := hderived.written
  have hword : "SCRIPT ".toList.getLast? ≠ some '\r' := by
    decide
  have hfeed : '\n' ∉ ("SCRIPT " ++ script.name).toList := by
    rw [String.toList_append]
    intro hmem
    rcases List.mem_append.mp hmem with hmem | hmem
    · revert hmem
      decide
    · exact feed_not_nameChar (hderived.name _ hmem)
  refine ⟨String.ofList (Text.dropReturn ("SCRIPT " ++ script.name).toList), ?_, ?_⟩
  · rw [String.toList_ofList, String.toList_append, Text.dropReturn_append hword,
      Text.dropReturn_append hword]
  · have hbody := hwritten.lines_append ""
    rw [String.append_empty, Text.lines_empty, List.append_nil] at hbody
    rw [Script.render, Script.renderHeader, Text.lines_append_feed hfeed, Script.renderBody, hbody]

private theorem parseScripts_of_results {source : String} {script : Script}
    (hresults : (Assembler.ofOptions {}).results (lineAfter 0 (Text.lines source).length)
      (TokenStream.tokensOfLines 0 false (Text.lines source)) = [.ok script]) :
    parseScripts source = .ok [script] := by
  rw [parseScripts, parseScriptsWith, Parser.scripts_ok_iff, Parser.results_ofLines]
  exact hresults

/-- A header that ends in a block comment takes all that follows into the comment. -/
private theorem results_commented {header : String} {name : List Lexeme} {rest : List String}
    (hline : Scan.line false header =
      ⟨⟨.value, "SCRIPT"⟩ :: ⟨.separator, " "⟩ :: name, true⟩)
    (hparts : ∀ lexeme ∈ name, Scan.IsPart lexeme)
    (hrest : TokenStream.tokensOfLines 1 true rest = []) (endLine : Nat) :
    (Assembler.ofOptions {}).results endLine
        (TokenStream.tokensOfLines 0 false (header :: rest)) =
      [.ok (Script.ofPhrases (String.join (name.map Lexeme.text)) 1 [])] := by
  obtain ⟨next, hat, htakes⟩ := Assembler.takes_openHeader Assembler.between_ofOptions 1 hparts
  have hfinish := (Position.finish_builder (String.join (name.map Lexeme.text)) 1 true none {}
    endLine _).mpr ⟨⟨rfl, rfl⟩, rfl, rfl⟩
  have hfirst : nextLine 0 = 1 := rfl
  rw [TokenStream.tokensOfLines, hfirst, hline, hrest, htakes]
  simp only [Assembler.results, hat.builder, Option.map_some, hfinish]
  rfl

/-- A script that is written out is read as one script. -/
theorem Script.Derived.parseScripts_render {script : Script} (hderived : script.Derived) :
    ∃ again, parseScripts script.render = .ok [again] ∧
      again.name.toList = characters script.readName ∧
        (script.readName.2.isComment = false → again.shape = script.shape) := by
  obtain ⟨header, hheader, hlines⟩ := lines_render hderived
  have hparts : ∀ lexeme ∈ script.readName.1, Scan.IsPart lexeme :=
    Scan.isPart_run _ fun c hmem => hderived.name c
      (Text.dropReturn_subset _ (Text.dropReturn_subset _ hmem))
  rcases line_header hheader with ⟨star, hcomment, hline⟩ | hline
  · obtain ⟨phrases, _, _, hwritten⟩ := hderived.written
    refine ⟨Script.ofPhrases (String.join (script.readName.1.map Lexeme.text)) 1 [],
      parseScripts_of_results ?_, ?_, ?_⟩
    · rw [hlines]
      exact results_commented hline hparts (hwritten.tokens_skipped 1) _
    · simp [Script.ofPhrases, characters, readName, hcomment, Mode.text, List.flatMap_map]
    · simp [readName, hcomment, Mode.isComment]
  · have hkinds : ∀ lexeme ∈ script.readName.1 ++ script.readName.2.flush,
        Scan.IsPart lexeme := by
      intro lexeme hmem
      rcases List.mem_append.mp hmem with hfound | hlast
      · exact hparts lexeme hfound
      · exact Scan.isPart_flush _ lexeme hlast
    obtain ⟨again, next, hname, hshape, hbetween, after, htakes⟩ :=
      hderived.takes hline hkinds Assembler.between_ofOptions 0 []
    refine ⟨again, parseScripts_of_results ?_, ?_, fun _ => hshape⟩
    · rw [List.append_nil] at htakes
      rw [hlines, htakes]
      exact hbetween.results_nil _
    · rw [hname, String.toList_join, List.flatMap_map, List.flatMap_append, Scan.flatMap_flush]
      rfl

private theorem opens_idle (text : List Char) : Scan.Opens .idle text ↔ BeginsComment text := by
  simp [Scan.Opens]

/-- A name that no comment begins in is read as it is, up to returns at its end. -/
private theorem readName_plain {script : Script} (hname : ∀ c ∈ script.name.toList, IsNameChar c)
    (hcomment : ¬ BeginsComment script.name.toList)
    (hreturn : script.name.toList.getLast? ≠ some '\r') :
    script.readName.2.isComment = false ∧ characters script.readName = script.name.toList := by
  have hkept : Text.dropReturn script.name.toList = script.name.toList := by
    rw [Text.dropReturn, if_neg hreturn]
  rw [Script.readName, hkept, hkept]
  rw [← opens_idle] at hcomment
  exact Scan.characters_run rfl hname hcomment

private theorem length_readName_lt {script : Script}
    (hname : ∀ c ∈ script.name.toList, IsNameChar c)
    (hlost : BeginsComment script.name.toList ∨ script.name.toList.getLast? = some '\r') :
    (characters script.readName).length < script.name.toList.length := by
  by_cases hreturn : script.name.toList.getLast? = some '\r'
  · have hdropped : ∀ c ∈ Text.dropReturn (Text.dropReturn script.name.toList), IsNameChar c :=
      fun c hmem => hname c (Text.dropReturn_subset _ (Text.dropReturn_subset _ hmem))
    have hfirst : (Text.dropReturn script.name.toList).length < script.name.toList.length := by
      rw [Text.dropReturn, if_pos hreturn, List.length_dropLast]
      have hne : script.name.toList ≠ [] := by
        intro hnil
        simp [hnil] at hreturn
      have hpos := List.length_pos_iff.mpr hne
      omega
    have hsecond := Text.length_dropReturn_le (Text.dropReturn script.name.toList)
    have hrun := Scan.length_run .idle hdropped
    simp only [Mode.text, String.toList_empty, List.length_nil] at hrun
    rw [Script.readName]
    omega
  · have hkept : Text.dropReturn script.name.toList = script.name.toList := by
      rw [Text.dropReturn, if_neg hreturn]
    have hopens := (opens_idle _).mpr (hlost.resolve_right hreturn)
    have hrun := Scan.length_run_lt rfl hname hopens
    simp only [Mode.text, String.toList_empty, List.length_nil] at hrun
    rw [Script.readName, hkept, hkept]
    omega

/-- A script that was read from a text and is written out is read again as one script.
It has the same name, and then also the same nodes, exactly if no comment begins in
the name and the name does not end with a carriage return. -/
theorem parseScripts_render_name_iff {options : Options} {source : String}
    {scripts : List Script} (hscripts : parseScriptsWith options source = .ok scripts)
    {script : Script} (hmem : script ∈ scripts) :
    ∃ again, parseScripts script.render = .ok [again] ∧
      (again.name = script.name ↔ ¬ BeginsComment script.name.toList ∧
        script.name.toList.getLast? ≠ some '\r') ∧
      (again.name = script.name → again.shape = script.shape) := by
  have hderived := Script.derived_of_mem_scripts hscripts script hmem
  obtain ⟨again, hparse, hname, hshape⟩ := hderived.parseScripts_render
  have hsame : again.name = script.name → ¬ BeginsComment script.name.toList ∧
      script.name.toList.getLast? ≠ some '\r' := by
    intro heq
    rw [heq] at hname
    have hlength := congrArg List.length hname
    constructor
    · intro hcomment
      have hlost := length_readName_lt hderived.name (.inl hcomment)
      omega
    · intro hreturn
      have hlost := length_readName_lt hderived.name (.inr hreturn)
      omega
  refine ⟨again, hparse, ⟨hsame, ?_⟩, ?_⟩
  · rintro ⟨hcomment, hreturn⟩
    obtain ⟨_, hplain⟩ := readName_plain hderived.name hcomment hreturn
    exact String.toList_inj.mp (hname.trans hplain)
  · intro heq
    obtain ⟨hcomment, hreturn⟩ := hsame heq
    exact hshape (readName_plain hderived.name hcomment hreturn).1

/-- A slash and a star that stood apart begin a comment in the header, and the end of
the name is lost. -/
theorem parseScripts_render_name_comment :
    let script := Script.ofPhrases "A/*B" 1 [.statement 2 [.value 2 "X"]]
    parseScriptsWith {} "SCRIPT A/ *B\n X;" = .ok [script] ∧
      ∃ again, parseScripts script.render = .ok [again] ∧
        (again.name = script.name ↔ ¬ BeginsComment script.name.toList ∧
          script.name.toList.getLast? ≠ some '\r') ∧
        (again.name = script.name → again.shape = script.shape) ∧ again.name ≠ script.name := by
  intro script
  have hparsed : (parseScriptsWith {} "SCRIPT A/ *B\n X;").toOption = some [script] := by
    decide +kernel
  have hscripts := ok_of_toOption hparsed
  obtain ⟨again, hagain, hiff, hshape⟩ := parseScripts_render_name_iff hscripts (.head _)
  refine ⟨hscripts, again, hagain, hiff, hshape, ?_⟩
  intro heq
  exact (hiff.mp heq).1 (.inr (by decide))

end SignalScript
