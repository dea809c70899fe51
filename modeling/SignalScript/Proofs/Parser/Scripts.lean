import SignalScript.Proofs.Grammar.Lexemes
import SignalScript.Proofs.Grammar.Soundness
import SignalScript.Proofs.Parser.Body
import SignalScript.Proofs.Parser.Invariant
import SignalScript.Proofs.Text.Lines
import SignalScript.Proofs.Token.Names

/-!
# The scripts of a text

Every script that a parser hands out holds the phrases of some derivation, with any
settings: a limit of depth and strictness about operators only ever refuse tokens.
So its phrases can be read again, and its name is made of characters that values and
operators are made of.
-/

namespace SignalScript

namespace Position

private theorem enter_none {position next after : Position} {maxDepth : Option Nat} {line : Nat}
    (henter : position.enter next maxDepth line = .ok after) :
    position.enter next none line = .ok after := by
  rw [enter] at henter
  cases hcheck : Stack.checkDepth maxDepth position.depth line with
  | error error => simp [hcheck, Except.map] at henter
  | ok checked =>
      rw [hcheck] at henter
      exact henter

private theorem enterExpression_none {position after : Position} {maxDepth : Option Nat}
    {line : Nat} (henter : position.enterExpression maxDepth line = .ok after) :
    position.enterExpression none line = .ok after := by
  rw [enterExpression] at henter ⊢
  split at henter
  · exact enter_none henter
  · exact henter
  · exact henter

private theorem addLeaf_none {position after : Position} {leaf : Expr} {maxDepth : Option Nat}
    {line : Nat} (hadd : position.addLeaf leaf maxDepth line = .ok after) :
    position.addLeaf leaf none line = .ok after := by
  rw [addLeaf] at hadd ⊢
  cases henter : position.enterExpression maxDepth line with
  | error error => simp [henter, Except.map] at hadd
  | ok inside =>
      rw [henter] at hadd
      rw [enterExpression_none henter]
      exact hadd

private theorem openEnclosure_none {position after : Position} {maxDepth : Option Nat} {line : Nat}
    (hopen : position.openEnclosure maxDepth line = .ok after) :
    position.openEnclosure none line = .ok after := by
  unfold openEnclosure at hopen ⊢
  split at hopen
  · exact enter_none hopen
  · cases henter : position.enterExpression maxDepth line with
    | error error => simp [henter, bind, Except.bind] at hopen
    | ok inside =>
        rw [henter] at hopen
        simp only [bind, Except.bind] at hopen
        simp only [enterExpression_none henter, bind, Except.bind]
        split at hopen
        · exact enter_none hopen
        · exact hopen

/-- A step that a limit of depth allows is the same without it. -/
theorem step_none {position after : Position} {step : Builder.Step} {maxDepth : Option Nat}
    {line : Nat} (hstep : position.step step maxDepth line = .ok after) :
    position.step step none line = .ok after := by
  cases step with
  | value text => exact addLeaf_none hstep
  | operator text => exact addLeaf_none hstep
  | openBlock =>
      rw [step, openBlock] at hstep ⊢
      split at hstep
      · exact enter_none hstep
      · exact hstep
      · exact hstep
  | openEnclosure => exact openEnclosure_none hstep
  | openConditional =>
      rw [step, openConditional] at hstep ⊢
      split at hstep
      · exact enter_none hstep
      · exact hstep
      · exact hstep
  | openAlternate => exact hstep
  | close closer =>
      cases closer with
      | statement =>
          rw [step, endStatement] at hstep ⊢
          split at hstep
          · split at hstep
            next hslot =>
              rw [if_pos hslot]
              exact enter_none hstep
            next hslot =>
              rw [if_neg hslot]
              exact hstep
          · exact hstep
          · exact hstep
          · exact hstep
      | bracket => exact hstep
      | block => exact hstep

theorem run_append (position : Position) (left right : List Token) :
    position.run (left ++ right) = (position.run left).bind (·.run right) := by
  induction left generalizing position with
  | nil => rfl
  | cons token left ih =>
      rw [List.cons_append, run, run]
      cases position.read token with
      | error error => rfl
      | ok next => exact ih next

end Position

/-- Whether a builder has read allowed tokens, the body of its script by the grammar, and
a name with a property. -/
def Builder.Reads (allowed : Token → Prop) (named : String → Prop) (builder : Builder) : Prop :=
  ∃ (name : String) (line : Nat) (readingName : Bool) (maxDepth : Option Nat)
    (position : Position) (tokens : List Token),
    builder = position.builder name line readingName maxDepth ∧
      named name ∧ ({} : Position).run tokens = .ok position ∧
        (∀ token ∈ tokens, Grammar.Terminal token) ∧ ∀ token ∈ tokens, allowed token

/-- Whether a builder has read sound tokens, the body of its script by the grammar. -/
def Builder.Derived (builder : Builder) : Prop :=
  builder.Reads (fun token => token.lexeme.Sound) fun name => ∀ c ∈ name.toList, IsNameChar c

private theorem nameChar_of_sound {token : Token} (hsound : token.lexeme.Sound)
    (hkind : token.kind = .value ∨ token.kind = .operator) :
    ∀ c ∈ token.text.toList, IsNameChar c := by
  have hsymbols : ∀ text ∈ symbols,
      (text.toList.all fun c => decide (c ∈ operatorChars)) = true := by
    decide +kernel
  intro c hmem
  rcases token with ⟨kind, text, line⟩
  rcases hkind with rfl | rfl
  · exact .inl (hsound.2 c hmem)
  · exact .inr (of_decide_eq_true (List.all_eq_true.mp (hsymbols text hsound) c hmem))

/-- A token that is a step is no blank and ends no script. -/
private theorem terminal_of_build {token : Token} {step : Builder.Step}
    (haction : Action.ofToken token = .build step) : Grammar.Terminal token := by
  apply Grammar.terminal_of_not_blank
  · rw [Bool.eq_false_iff]
    intro hblank
    rw [(({} : Position).read_blank hblank).1] at haction
    cases haction
  · rw [Bool.eq_false_iff]
    intro hends
    simp only [Token.endsScript, Bool.and_eq_true, Bool.or_eq_true, decide_eq_true_eq] at hends
    rcases token with ⟨kind, text, line⟩
    obtain ⟨rfl, rfl | rfl⟩ := hends
    · cases haction
    · cases haction

theorem Builder.reads_invariant {allowed : Token → Prop} {named : String → Prop}
    (hempty : named "")
    (hpart : ∀ name token, allowed token → token.kind = .value ∨ token.kind = .operator →
      named name → named (name ++ token.text)) :
    Builder.Invariant allowed (Builder.Reads allowed named) where
  start _ maxDepth :=
    ⟨"", _, true, maxDepth, {}, [], rfl, hempty, rfl, by simp, by simp⟩
  pushName := by
    rintro builder token hallowed hkind
      ⟨name, line, readingName, maxDepth, position, tokens, rfl, hname, hread⟩
    exact ⟨name ++ token.text, line, readingName, maxDepth, position, tokens, rfl,
      hpart name token hallowed hkind hname, hread⟩
  endName := by
    rintro builder ⟨name, line, readingName, maxDepth, position, tokens, rfl, hread⟩
    exact ⟨name, line, false, maxDepth, position, tokens, rfl, hread⟩
  apply := by
    rintro builder next token step hallowed haction
      ⟨name, line, readingName, maxDepth, position, tokens, rfl, hname, hrun, hterminal, htokens⟩
      happly
    obtain ⟨after, hstep, hnext⟩ := Position.exists_step_of_apply _ _ _ _ happly
    have hread : position.read token = .ok after := by
      rw [Position.read, haction]
      exact Position.step_none hstep
    refine ⟨name, line, readingName, maxDepth, after, tokens ++ [token], hnext, hname,
      ?_, ?_, ?_⟩
    · rw [Position.run_append, hrun]
      exact Position.run_cons hread []
    · intro other hmem
      rcases List.mem_append.mp hmem with hold | hnew
      · exact hterminal other hold
      · obtain rfl := List.mem_singleton.mp hnew
        exact terminal_of_build haction
    · intro other hmem
      rcases List.mem_append.mp hmem with hold | hnew
      · exact htokens other hold
      · obtain rfl := List.mem_singleton.mp hnew
        exact hallowed

/-- A script that is finished holds the phrases of a derivation. -/
theorem Builder.Reads.finish {allowed : Token → Prop} {named : String → Prop} {builder : Builder}
    (hreads : builder.Reads allowed named) {endLine : Nat} {script : Script}
    (hfinish : builder.finish endLine = .ok script) :
    named script.name ∧ ∃ tokens phrases, (∀ token ∈ tokens, allowed token) ∧
      Grammar.Items tokens phrases [] ∧
        script = Script.ofPhrases script.name script.line phrases := by
  obtain ⟨name, line, readingName, maxDepth, position, tokens, rfl, hname, hrun, hterminal,
    htokens⟩ := hreads
  rw [Position.finish_builder] at hfinish
  obtain ⟨hbetween, haround, rfl⟩ := hfinish
  exact ⟨hname, tokens, position.level.done, htokens,
    Position.items_of_run hterminal hrun hbetween haround, rfl⟩

/-- Every script that is read, from lines of any kind, holds the phrases of a
derivation. -/
theorem Script.exists_items {lines : List String} {options : Options} {script : Script}
    (hscript : .ok script ∈ (Parser.ofLines lines options).results) :
    ∃ tokens phrases, Grammar.Items tokens phrases [] ∧
      script = Script.ofPhrases script.name script.line phrases := by
  have hinvariant : Builder.Invariant (fun _ => True)
      (Builder.Reads (fun _ => True) fun _ => True) :=
    Builder.reads_invariant trivial fun _ _ _ _ _ => trivial
  obtain ⟨builder, line, hreads, hfinish⟩ :=
    Parser.exists_finish hinvariant (fun _ _ => trivial) hscript
  obtain ⟨-, tokens, phrases, -, hitems, hphrases⟩ := hreads.finish hfinish
  exact ⟨tokens, phrases, hitems, hphrases⟩

theorem Builder.derived_invariant :
    Builder.Invariant (fun token => token.lexeme.Sound) Builder.Derived := by
  refine Builder.reads_invariant (by simp) fun name token hsound hkind hname c hmem => ?_
  rw [String.toList_append] at hmem
  rcases List.mem_append.mp hmem with hold | hnew
  · exact hname c hold
  · exact nameChar_of_sound hsound hkind c hnew

/-- What a script that is handed out holds. -/
structure Script.Derived (script : Script) : Prop where
  name : ∀ c ∈ script.name.toList, IsNameChar c
  phrases : ∃ phrases, Phrase.AllSound phrases ∧
    script = Script.ofPhrases script.name script.line phrases

theorem Builder.Derived.finish {builder : Builder} (hderived : builder.Derived) {endLine : Nat}
    {script : Script} (hfinish : builder.finish endLine = .ok script) : script.Derived := by
  obtain ⟨hname, tokens, phrases, htokens, hitems, hphrases⟩ :=
    Builder.Reads.finish hderived hfinish
  exact ⟨hname, phrases, (Grammar.sound_items hitems htokens).1, hphrases⟩

/-- The tokens of a text are sound. -/
theorem sound_tokensOfLines (source : String) (lineNumber : Nat) :
    Grammar.SoundTokens (TokenStream.tokensOfLines lineNumber false (Text.lines source)) := by
  apply TokenStream.sound_tokensOfLines
  exact Text.feed_not_mem_lines source

/-- Every script that is read from a text, before an error or without one, holds the
phrases of a derivation. -/
theorem Script.derived_of_mem_results {source : String} {options : Options} {script : Script}
    (hscript : .ok script ∈ (Parser.ofLines (Text.lines source) options).results) :
    script.Derived := by
  obtain ⟨builder, line, hderived, hfinish⟩ :=
    Parser.exists_finish Builder.derived_invariant (sound_tokensOfLines source _) hscript
  exact hderived.finish hfinish

theorem Script.derived_of_mem_scripts {source : String} {options : Options}
    {scripts : List Script} (hscripts : parseScriptsWith options source = .ok scripts) :
    ∀ script ∈ scripts, script.Derived := by
  rw [parseScriptsWith, Parser.scripts_ok_iff] at hscripts
  intro script hmem
  apply derived_of_mem_results
  rw [hscripts]
  exact List.mem_map_of_mem hmem

end SignalScript
