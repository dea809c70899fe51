import SignalScript.Proofs.Parser.Scripts
import SignalScript.Proofs.Parser.Sections
import SignalScript.Proofs.Render.Reading

/-!
# Scripts that are read again

Scripts that were read from a text and are written out, each behind a header of its
own, are read as the same scripts, apart from names and lines.
-/

namespace SignalScript

/-- Where a script can end, its phrases are all that there is. -/
theorem Assembler.At.between {assembler : Assembler} {position : Position} {name : String}
    {line : Nat} (hat : assembler.At (position.builder name line false none))
    (hbetween : position.Between) (haround : position.around = []) :
    assembler.Between (some (Script.ofPhrases name line position.level.done)) where
  strict := hat.strict
  unlimited := hat.unlimited
  builder := ⟨_, hat.builder, rfl, fun endLine =>
    (Position.finish_builder name line false none position endLine _).mpr
      ⟨hbetween, haround, rfl⟩⟩

/-- Tokens that the grammar derives end no script, and blanks do not either. -/
private theorem not_endsScript {tokens : List Token} {phrases : List Phrase}
    (hitems : Grammar.Items (tokens.filter fun token => !token.isBlank) phrases []) :
    ∀ token ∈ tokens, token.endsScript = false := by
  intro token hmem
  cases hblank : token.isBlank with
  | true =>
      rcases token with ⟨kind, text, line⟩
      cases kind <;> simp_all [Token.isBlank, Token.endsScript]
  | false =>
      have hterminal := Grammar.terminals_items hitems (by simp [Grammar.Terminals]) token
        (List.mem_filter.mpr ⟨hmem, by simp [hblank]⟩)
      exact hterminal.endsScript

/-- The lines of a script, behind the header. -/
theorem Script.Derived.written {script : Script} (hderived : script.Derived) :
    ∃ phrases, Phrase.AllSound phrases ∧
      script.shape = (Script.ofPhrases "" 0 (Phrase.allUnplaced phrases)).nodes ∧
        Written (script.tree.lines 1) (Phrase.allLexemes phrases) := by
  obtain ⟨_, phrases, hsound, heq⟩ := hderived
  refine ⟨phrases, hsound, ?_, ?_⟩
  · rw [heq, Script.shape_ofPhrases]
  · rw [heq, Script.tree_ofPhrases]
    exact Tree.written_phrases phrases hsound 1 (Script.root + 1)

/-- The lines of a script are read behind a header as the same script. -/
theorem Script.Derived.takes {script : Script} (hderived : script.Derived) {header : String}
    {name : List Lexeme}
    (hheader : Scan.line false header =
      ⟨⟨.value, "SCRIPT"⟩ :: ⟨.separator, " "⟩ :: (name ++ [.lineEnd]), false⟩)
    (hkinds : ∀ lexeme ∈ name, lexeme.kind = .value ∨ lexeme.kind = .operator)
    {assembler : Assembler} {ended : Option Script} (hbetween : assembler.Between ended)
    (lineNumber : Nat) (rest : List String) :
    ∃ (again : Script) (next : Assembler), again.name = String.join (name.map Lexeme.text) ∧
      again.shape = script.shape ∧ next.Between (some again) ∧ ∃ after, ∀ endLine,
        assembler.results endLine (TokenStream.tokensOfLines lineNumber false
            (header :: ((script.tree.lines 1).map ScriptLine.source ++ rest))) =
          ended.toList.map .ok ++
            next.results endLine (TokenStream.tokensOfLines after false rest) := by
  obtain ⟨phrases, hsound, hshape, hwritten⟩ := hderived.written
  have hlexemes := hwritten.lexemes_tokens (nextLine lineNumber)
  rw [← List.append_nil (Phrase.allLexemes phrases)] at hlexemes
  obtain ⟨again, behind, hagain, hbehind, hitems⟩ :=
    Grammar.items_of_lexemes phrases hsound hlexemes
  obtain rfl := List.map_eq_nil_iff.mp hbehind
  have hrun := Position.read_items hitems {} ⟨rfl, rfl⟩
  rw [Position.run_filter] at hrun
  have htakes := (Assembler.takes_header hbetween (nextLine lineNumber) hkinds).append
    fun _ hat => Assembler.takes_body hat (not_endsScript hitems) hrun
  obtain ⟨next, hat, hresults⟩ := htakes
  refine ⟨_, next, rfl, ?_, hat.between (Position.between_addPhrases _ _) rfl,
    lineAfter (nextLine lineNumber) ((script.tree.lines 1).map ScriptLine.source).length, ?_⟩
  · rw [hshape, Script.shape_ofPhrases]
    exact congrArg (fun phrases => (Script.ofPhrases "" 0 phrases).nodes) hagain
  · intro endLine
    rw [TokenStream.tokensOfLines, hheader,
      TokenStream.tokensOfLines_append, Comment.openAfter_eq_false hwritten.inComment,
      ← List.append_assoc, hresults]
    simp

/-- Scripts written one after the other, each behind a header with the name `T`. -/
def renderBodies (scripts : List Script) : String :=
  String.join (scripts.map fun script => "SCRIPT T\n" ++ script.renderBody)

private theorem lines_renderBodies {script : Script} (hderived : script.Derived)
    (scripts : List Script) :
    Text.lines (renderBodies (script :: scripts)) =
      "SCRIPT T" :: ((script.tree.lines 1).map ScriptLine.source ++
        Text.lines (renderBodies scripts)) := by
  obtain ⟨phrases, _, _, hwritten⟩ := hderived.written
  have htext : renderBodies (script :: scripts) =
      "SCRIPT T" ++ "\n" ++ (script.renderBody ++ renderBodies scripts) := by
    rw [renderBodies, List.map_cons, String.join_cons, String.append_assoc]
    rfl
  rw [htext, Text.lines_append_feed (by decide), Script.renderBody, hwritten.lines_append]
  rfl

private theorem results_renderBodies {scripts : List Script}
    (hderived : ∀ script ∈ scripts, script.Derived) {assembler : Assembler}
    {ended : Option Script} (hbetween : assembler.Between ended) (lineNumber endLine : Nat) :
    ∃ again : List Script, again.map Script.shape = scripts.map Script.shape ∧
      assembler.results endLine (TokenStream.tokensOfLines lineNumber false
          (Text.lines (renderBodies scripts))) = (ended.toList ++ again).map .ok := by
  induction scripts generalizing assembler ended lineNumber with
  | nil =>
      refine ⟨[], rfl, ?_⟩
      rw [List.append_nil]
      exact hbetween.results_nil endLine
  | cons script scripts ih =>
      have hfirst := hderived script (.head _)
      have hheader : Scan.line false "SCRIPT T" = ⟨⟨.value, "SCRIPT"⟩ :: ⟨.separator, " "⟩ ::
          ([⟨.value, "T"⟩] ++ [.lineEnd]), false⟩ := by
        decide +kernel
      obtain ⟨again, next, _, hshape, hnext, after, hresults⟩ := hfirst.takes hheader (by simp)
        hbetween lineNumber (Text.lines (renderBodies scripts))
      obtain ⟨others, hothers, hrest⟩ :=
        ih (fun other hother => hderived other (.tail _ hother)) hnext after
      refine ⟨again :: others, by simp [hshape, hothers], ?_⟩
      rw [lines_renderBodies hfirst, hresults, hrest]
      simp

/-- Scripts that are written behind a header of their own are read again: there are
as many, and each has the same table of nodes, but for the lines. -/
theorem parseScripts_renderBodies {options : Options} {source : String} {scripts : List Script}
    (hscripts : parseScriptsWith options source = .ok scripts) :
    ∃ again : List Script, parseScripts (renderBodies scripts) = .ok again ∧
      again.map Script.shape = scripts.map Script.shape := by
  have hderived := Script.derived_of_mem_scripts hscripts
  obtain ⟨again, hshape, hresults⟩ := results_renderBodies hderived Assembler.between_ofOptions 0
    (lineAfter 0 (Text.lines (renderBodies scripts)).length)
  refine ⟨again, ?_, hshape⟩
  rw [parseScripts, parseScriptsWith, Parser.scripts_ok_iff, Parser.results_ofLines]
  exact hresults

/-- An alternate that is empty is written as a `;` of its own, and the `;` behind the
last statement is not written. -/
theorem parseScripts_renderBodies_nested :
    let scripts := [Script.ofPhrases "A" 1 [.alternative ⟨2, 2, [.value 2 "X"]⟩
      (.alternative ⟨2, 2, [.value 2 "Y"]⟩ (.statement 2 [.value 2 "P"]) (.statement 2 []))
      (.statement 3 [.value 3 "Q", .operator 3 "=", .value 3 "SS"])]]
    parseScriptsWith { maxDepth := some 6 }
        "SCRIPT A\nIF (x) IF (y) p ELSE; ELSE\nq = \u00df;;" = .ok scripts ∧
      ∃ again : List Script, parseScripts (renderBodies scripts) = .ok again ∧
        again.map Script.shape = scripts.map Script.shape := by
  intro scripts
  have hparsed : (parseScriptsWith { maxDepth := some 6 }
      "SCRIPT A\nIF (x) IF (y) p ELSE; ELSE\nq = \u00df;;").toOption = some scripts := by
    decide +kernel
  have hscripts := ok_of_toOption hparsed
  exact ⟨hscripts, parseScripts_renderBodies hscripts⟩

end SignalScript
