import SignalScript.Proofs.Builder.Consistency
import SignalScript.Proofs.Grammar.Soundness

/-!
# The body of a script

With the default settings, the tokens behind the name of a script are read without
an error exactly if the grammar derives them, and the script is then the one of the
derivation.
-/

namespace SignalScript

namespace Action

/-- Only a `REM` ends a script and begins a remark. -/
theorem ofToken_remark {token : Token} (hrem : token.lexeme = ⟨.value, "REM"⟩) :
    ofToken token = .remark := by
  rcases token with ⟨kind, text, line⟩
  cases hrem
  rfl

theorem ofToken_nextScript {token : Token} (hscript : token.lexeme = ⟨.value, "SCRIPT"⟩) :
    ofToken token = .nextScript := by
  rcases token with ⟨kind, text, line⟩
  cases hscript
  rfl

private theorem ofValue_inside {text : String} (hrem : text ≠ "REM") (hscript : text ≠ "SCRIPT") :
    ofValue text = .skip ∨ ∃ step, ofValue text = .build step := by
  unfold ofValue
  split
  · exact absurd rfl hrem
  · exact absurd rfl hscript
  · exact .inr ⟨_, rfl⟩
  · exact .inr ⟨_, rfl⟩
  · split
    · exact .inr ⟨_, rfl⟩
    · exact .inr ⟨_, rfl⟩

/-- Every other token stays inside. -/
theorem ofToken_inside {token : Token} (hrem : token.lexeme ≠ ⟨.value, "REM"⟩)
    (hscript : token.lexeme ≠ ⟨.value, "SCRIPT"⟩) :
    ofToken token = .skip ∨ ∃ step, ofToken token = .build step := by
  rcases token with ⟨kind, text, line⟩
  cases kind with
  | value =>
      have hrem' : text ≠ "REM" := by simpa [Token.lexeme] using hrem
      have hscript' : text ≠ "SCRIPT" := by simpa [Token.lexeme] using hscript
      exact ofValue_inside hrem' hscript'
  | separator | tab | comma | lineEnd => exact .inl rfl
  | operator | statementEnd | bracketOpen | bracketClose | blockOpen | blockClose =>
      exact .inr ⟨_, rfl⟩

/-- The same for a token that ends no script. -/
theorem ofToken_inner {token : Token} (hends : token.endsScript = false) :
    ofToken token = .skip ∨ ∃ step, ofToken token = .build step := by
  have hneither := mt Token.endsScript_iff.mpr (Bool.eq_false_iff.mp hends)
  rw [not_or] at hneither
  exact ofToken_inside hneither.1 hneither.2

end Action

namespace Assembler

/-- An assembler with the default settings that has read the name of a script. -/
def named (name : String) (line : Nat) : Assembler :=
  { Assembler.ofOptions {} with
    builder := some ((Builder.start line none).pushName name).endName }

/-- Takes tokens one by one, up to the first error. -/
def feed (assembler : Assembler) : List Token → Except ParseError Assembler
  | [] => .ok assembler
  | token :: rest =>
    match assembler.consume token with
    | (next, .ok _) => next.feed rest
    | (_, .error error) => .error error

theorem feed_cons {assembler next : Assembler} {token : Token} {ended : Option Script}
    (hconsume : assembler.consume token = (next, .ok ended)) (rest : List Token) :
    assembler.feed (token :: rest) = next.feed rest := by
  rw [feed, hconsume]

/-- The first token is taken, and then the others. -/
theorem exists_consume_of_feed {assembler next : Assembler} {token : Token} {rest : List Token}
    (hfeed : assembler.feed (token :: rest) = .ok next) :
    ∃ middle ended, assembler.consume token = (middle, .ok ended) ∧
      middle.feed rest = .ok next := by
  rw [feed] at hfeed
  rcases hconsume : assembler.consume token with ⟨middle, error | ended⟩
  · simp [hconsume] at hfeed
  · rw [hconsume] at hfeed
    exact ⟨middle, ended, rfl, hfeed⟩

theorem feed_append {assembler next : Assembler} {left : List Token}
    (hleft : assembler.feed left = .ok next) (right : List Token) :
    assembler.feed (left ++ right) = next.feed right := by
  induction left generalizing assembler with
  | nil =>
      obtain rfl := Except.ok.inj hleft
      rfl
  | cons token left ih =>
      obtain ⟨middle, ended, hconsume, hrest⟩ := exists_consume_of_feed hleft
      rw [List.cons_append, feed_cons hconsume, ih hrest]

end Assembler

/-- What comes of the tokens behind the name of a script that ends on a line,
which is nothing if they end it before. -/
def readBody (name : String) (line : Nat) (tokens : List Token) (endLine : Nat) :
    Option (Except ParseError Script) :=
  match (Assembler.named name line).feed tokens with
  | .error error => some (.error error)
  | .ok assembler => assembler.builder.map (·.finish endLine)

namespace Position

variable (name : String) (line : Nat) (readingName : Bool) (maxDepth : Option Nat)

/-- A blank changes nothing. -/
theorem read_blank (position : Position) {token : Token} (hblank : token.isBlank = true) :
    Action.ofToken token = .skip ∧ position.read token = .ok position := by
  rcases token with ⟨kind, text, tokenLine⟩
  cases kind with
  | separator => exact ⟨rfl, rfl⟩
  | tab => exact ⟨rfl, rfl⟩
  | comma => exact ⟨rfl, rfl⟩
  | lineEnd => exact ⟨rfl, rfl⟩
  | value => simp [Token.isBlank] at hblank
  | operator => simp [Token.isBlank] at hblank
  | bracketOpen => simp [Token.isBlank] at hblank
  | bracketClose => simp [Token.isBlank] at hblank
  | statementEnd => simp [Token.isBlank] at hblank
  | blockOpen => simp [Token.isBlank] at hblank
  | blockClose => simp [Token.isBlank] at hblank

/-- A token that is no blank and does not end the script is a step. -/
theorem ofToken_terminal {token : Token} (hterminal : Grammar.Terminal token) :
    ∃ step, Action.ofToken token = .build step := by
  cases hterminal with
  | begins hbegins =>
      cases hbegins with
      | leaf leaf =>
          obtain ⟨step, haction, _⟩ := ofToken_leaf leaf
          exact ⟨step, haction⟩
      | bracketOpen text line => exact ⟨_, rfl⟩
  | ifWord line => exact ⟨_, rfl⟩
  | elseWord line => exact ⟨_, rfl⟩
  | statementEnd text line => exact ⟨_, rfl⟩
  | bracketClose text line => exact ⟨_, rfl⟩
  | blockOpen text line => exact ⟨_, rfl⟩
  | blockClose text line => exact ⟨_, rfl⟩

private theorem level_frames_ne_nil (line : Nat) (level : Level) (around : List (Level × Nat)) :
    level.frames line around ≠ [] := by
  obtain ⟨kind, containerLine, outer, _, hframes⟩ := frames_level line around
  rw [hframes]
  simp [Level.onto]

/-- Only the root is open where a phrase can begin outside of blocks and
conditionals. -/
theorem frames_eq_singleton {position : Position} {top : Frame}
    (hframes : position.frames line = [top]) : position.Between ∧ position.around = [] := by
  have hlevel := level_frames_ne_nil line position.level position.around
  cases hfocus : position.focus with
  | phrase =>
      rw [frames_of_focus line hfocus, Focus.frames] at hframes
      rcases position.level.chain_cases with ⟨hslot, _⟩ | ⟨arm, isAlternate, rest, _, _, hchain⟩
      · refine ⟨⟨hfocus, hslot⟩, ?_⟩
        cases haround : position.around with
        | nil => rfl
        | cons outside around =>
            have hlength := congrArg List.length hframes
            have houter := List.length_pos_iff.mpr
              (level_frames_ne_nil line outside.1 around)
            simp only [haround, Level.frames, Level.onto, List.length_append, List.length_cons,
              List.length_nil] at hlength
            omega
      · obtain ⟨kind, containerLine, outer, _, hother⟩ := frames_level line position.around
        rw [hother, Level.onto, hchain] at hframes
        simp at hframes
  | head headLine =>
      rw [frames_of_focus line hfocus] at hframes
      exact absurd (List.cons.inj hframes).2 hlevel
  | exprs anchor around done =>
      rw [frames_of_focus line hfocus] at hframes
      have hlength := congrArg List.length hframes
      have hbase := List.length_pos_iff.mpr hlevel
      rw [Focus.frames, length_exprFrames] at hlength
      cases anchor <;> simp only [List.length_cons, List.length_nil] at hlength <;> omega

theorem stack_of_between {position : Position} (hbetween : position.Between)
    (haround : position.around = []) :
    position.stack line =
      [(({ done := position.level.done } : Level).container .script line).settle] := by
  rw [stack, frames_of_focus line hbetween.focus, Focus.frames, haround, hbetween.level_eq]
  rfl

theorem script_container (name : String) (line : Nat) (phrases : List Phrase) :
    Stack.script name line
        [(({ done := phrases } : Level).container .script line).settle] =
      Script.ofPhrases name line phrases := by
  simp [Stack.script, Stack.rows, Stack.innerRows, Stack.frameRows, Script.ofPhrases, Frame.row,
    Frame.children, Level.container, Frame.settle, Stack.topId?, Stack.size, Script.root,
    NodeKind.isConditional]

private theorem finish_singleton (top : Frame) (endLine : Nat) :
    (Stack.builder name line readingName maxDepth [top]).finish endLine =
      .ok (Stack.script name line [top]) := rfl

/-- A script ends where nothing is open in it. -/
theorem finish_builder (position : Position) (endLine : Nat) (script : Script) :
    (position.builder name line readingName maxDepth).finish endLine = .ok script ↔
      position.Between ∧ position.around = [] ∧
        script = Script.ofPhrases name line position.level.done := by
  obtain ⟨top, outer, hframes⟩ := frames_ne_nil line position
  have hbuilder : position.builder name line readingName maxDepth =
      Stack.builder name line readingName maxDepth (top.settle :: outer) := by
    rw [builder, stack, hframes, Stack.settle]
  constructor
  · intro hfinish
    have hroot : outer = [] := by
      cases outer with
      | nil => rfl
      | cons below outer =>
          rw [hbuilder, Builder.finish, if_neg] at hfinish
          · cases hfinish
          · simp only [Stack.builder, List.tail_cons, Stack.size, Script.root]
            omega
    subst hroot
    obtain ⟨hbetween, haround⟩ := frames_eq_singleton line hframes
    refine ⟨hbetween, haround, ?_⟩
    rw [builder, stack_of_between line hbetween haround, finish_singleton, script_container]
      at hfinish
    exact (Except.ok.inj hfinish).symm
  · rintro ⟨hbetween, haround, rfl⟩
    rw [builder, stack_of_between line hbetween haround, finish_singleton, script_container]

/-- Blanks make no difference. -/
theorem run_filter (position : Position) (tokens : List Token) :
    position.run (tokens.filter fun token => !token.isBlank) = position.run tokens := by
  induction tokens generalizing position with
  | nil => rfl
  | cons token tokens ih =>
      cases hblank : token.isBlank with
      | true =>
          rw [List.filter_cons_of_neg (by simp [hblank]), ih,
            run_cons (position.read_blank hblank).2]
      | false =>
          rw [List.filter_cons_of_pos (by simp [hblank]), run, run]
          simp only [ih]

/-- Tokens that lead to a place where a script can end are derivable, and the phrases
there are those of the derivation. -/
theorem items_of_run {position : Position} {tokens : List Token}
    (hterminal : ∀ token ∈ tokens, Grammar.Terminal token)
    (hrun : ({} : Position).run tokens = .ok position) (hbetween : position.Between)
    (haround : position.around = []) : Grammar.Items tokens position.level.done [] := by
  obtain ⟨phrases, hitems⟩ := items_of_accepts hterminal ⟨position, hrun, hbetween, haround⟩
  have hread := read_items hitems {} ⟨rfl, rfl⟩
  rw [hrun] at hread
  obtain rfl := Except.ok.inj hread
  exact hitems

end Position

namespace Assembler

variable {name : String} {line : Nat}

/-- With the default settings an operator is never refused. -/
private theorem checkOperator_ok (assembler : Assembler)
    (hstrict : assembler.strictOperators = false) (step : Builder.Step) (nodeLine : Nat) :
    ∃ checked, assembler.checkOperator step nodeLine = .ok checked ∧
      checked.strictOperators = false := by
  unfold checkOperator
  split
  · split
    · exact ⟨assembler, rfl, hstrict⟩
    · rw [hstrict]
      exact ⟨_, rfl, rfl⟩
  · exact ⟨assembler, rfl, hstrict⟩

/-- Behind its name, a script takes the tokens that its position reads. -/
theorem consume_builder {assembler : Assembler} {position : Position} {token : Token}
    (hstrict : assembler.strictOperators = false)
    (hbuilder : assembler.builder = some (position.builder name line false none))
    (hends : token.endsScript = false) :
    match position.read token with
    | .error error => (assembler.consume token).2 = .error error
    | .ok after => (assembler.consume token).2 = .ok none ∧
        (assembler.consume token).1.strictOperators = false ∧
        (assembler.consume token).1.builder = some (after.builder name line false none) := by
  have hconsume : assembler.consume token =
      ({ assembler with builder := none } : Assembler).consumeBody
        (position.builder name line false none) token := by
    rw [consume, hbuilder]
    rfl
  rw [hconsume, consumeBody]
  cases hblank : token.isBlank with
  | true =>
      obtain ⟨haction, hread⟩ := position.read_blank hblank
      rw [hread, haction]
      exact ⟨rfl, hstrict, rfl⟩
  | false =>
      obtain ⟨step, haction⟩ := Position.ofToken_terminal
        (Grammar.terminal_of_not_blank hblank hends)
      have hread : position.read token = position.step step none token.line := by
        rw [Position.read, haction]
      obtain ⟨checked, hcheck, hchecked⟩ := checkOperator_ok
        { assembler with builder := none } hstrict step token.line
      have happly := Position.apply_builder name line false none position step token.line
      simp only [haction, build, hcheck, hread, happly]
      cases position.step step none token.line with
      | error error => rfl
      | ok after => exact ⟨rfl, hchecked, rfl⟩

theorem feed_builder {assembler : Assembler} {position : Position} {tokens : List Token}
    (hstrict : assembler.strictOperators = false)
    (hbuilder : assembler.builder = some (position.builder name line false none))
    (hends : ∀ token ∈ tokens, token.endsScript = false) :
    match position.run tokens with
    | .error error => assembler.feed tokens = .error error
    | .ok after => ∃ next, assembler.feed tokens = .ok next ∧
        next.builder = some (after.builder name line false none) := by
  induction tokens generalizing assembler position with
  | nil => exact ⟨assembler, rfl, hbuilder⟩
  | cons token tokens ih =>
      have htoken := consume_builder hstrict hbuilder (hends token (.head _))
      rw [Position.run, feed]
      rcases hconsume : assembler.consume token with ⟨next, result⟩
      rw [hconsume] at htoken
      cases hread : position.read token with
      | error error =>
          rw [hread] at htoken
          obtain rfl := htoken
          rfl
      | ok after =>
          rw [hread] at htoken
          obtain ⟨rfl, hnext, hafter⟩ := htoken
          exact ih hnext hafter fun other hother => hends other (.tail _ hother)

end Assembler

/-- A body without `REM` and `SCRIPT` is read to its end exactly if its tokens,
blanks aside, are derivable, and gives the script of the derivation. -/
theorem readBody_ok_iff (name : String) (line : Nat) (tokens : List Token) (endLine : Nat)
    (hends : ∀ token ∈ tokens, token.endsScript = false) (script : Script) :
    readBody name line tokens endLine = some (.ok script) ↔
      ∃ phrases, Grammar.Items (tokens.filter fun token => !token.isBlank) phrases [] ∧
        script = Script.ofPhrases name line phrases := by
  have hnamed : (Assembler.named name line).builder =
      some (({} : Position).builder name line false none) := by
    simp [Assembler.named, Builder.start, Builder.pushName, Builder.endName, Script.opened,
      Position.builder_start]
  have hstrict : (Assembler.named name line).strictOperators = false := rfl
  have hfeed := Assembler.feed_builder hstrict hnamed hends
  constructor
  · intro hread
    cases hrun : ({} : Position).run tokens with
    | error error =>
        rw [hrun] at hfeed
        simp [readBody, hfeed] at hread
    | ok after =>
        rw [hrun] at hfeed
        obtain ⟨next, hnext, hbuilder⟩ := hfeed
        simp only [readBody, hnext, hbuilder, Option.map_some, Option.some.injEq,
          Position.finish_builder] at hread
        obtain ⟨hbetween, haround, rfl⟩ := hread
        have hterminal : ∀ token ∈ tokens.filter fun token => !token.isBlank,
            Grammar.Terminal token := by
          intro token htoken
          obtain ⟨hmem, hblank⟩ := List.mem_filter.mp htoken
          exact Grammar.terminal_of_not_blank (by simpa using hblank) (hends token hmem)
        rw [← Position.run_filter] at hrun
        exact ⟨_, Position.items_of_run hterminal hrun hbetween haround, rfl⟩
  · rintro ⟨phrases, hitems, rfl⟩
    have hrun := Position.read_items hitems {} ⟨rfl, rfl⟩
    rw [Position.run_filter] at hrun
    rw [hrun] at hfeed
    obtain ⟨next, hnext, hbuilder⟩ := hfeed
    simp only [readBody, hnext, hbuilder, Option.map_some, Option.some.injEq,
      Position.finish_builder]
    exact ⟨Position.between_addPhrases _ _, rfl, rfl⟩

/-- The body is ended by the `ELSE`, and the alternate is empty. -/
theorem readBody_if_else :
    let tokens : List Token := [⟨.value, "IF", 2⟩, ⟨.separator, " ", 2⟩, ⟨.bracketOpen, "(", 2⟩,
      ⟨.value, "X", 2⟩, ⟨.bracketClose, ")", 2⟩, ⟨.lineEnd, "\n", 2⟩, ⟨.value, "Y", 3⟩,
      ⟨.separator, " ", 3⟩, ⟨.value, "ELSE", 3⟩, ⟨.statementEnd, ";", 3⟩]
    (∀ token ∈ tokens, token.endsScript = false) ∧
      readBody "A" 1 tokens 3 = some (.ok (Script.ofPhrases "A" 1 [.alternative
        ⟨2, 2, [.value 2 "X"]⟩ (.statement 3 [.value 3 "Y"]) (.statement 3 [])])) := by
  intro tokens
  have hends : ∀ token ∈ tokens, token.endsScript = false := by decide
  refine ⟨hends, (readBody_ok_iff "A" 1 tokens 3 hends _).mpr ⟨_, ?_, rfl⟩⟩
  have hhead : Grammar.Head (tokens.filter fun token => !token.isBlank)
      ⟨2, 2, [.value 2 "X"]⟩ [⟨.value, "Y", 3⟩, ⟨.value, "ELSE", 3⟩, ⟨.statementEnd, ";", 3⟩] :=
    .mk (.leaf (.value "X" 2 (by decide) (by decide)) (.nil _))
  have hbody : Grammar.Slot
      [⟨.value, "Y", 3⟩, ⟨.value, "ELSE", 3⟩, ⟨.statementEnd, ";", 3⟩]
      (.statement 3 [.value 3 "Y"]) [⟨.value, "ELSE", 3⟩, ⟨.statementEnd, ";", 3⟩] :=
    .beforeElse (.leaf (.value "Y" 3 (by decide) (by decide)) (.nil _))
  exact .cons (.alternative hhead hbody rfl (.mk 3 _) (.empty ";" 3 [])) (.nil [])

end SignalScript
