import Mathlib.Data.List.Forall2
import SignalScript.Proofs.Builder.Shift
import SignalScript.Proofs.Parser.Calls
import SignalScript.Proofs.Token.Reading

/-!
# Line offsets

A source can be embedded in a larger one, of which the offset counts the lines before it.
Two parsers of the same lines that differ only in their offset go through the same states
with all lines moved, so that the answers to all calls are the same but for their lines.  This
holds as long as the lines further down have numbers below the bound.
-/

namespace SignalScript

/-! ## Tokens -/

/-- The token, some lines further down. -/
def Token.shift (offset : Nat) (token : Token) : Token :=
  { token with line := token.line + offset }

namespace TokenStream

/-- The stream of the same lines, some lines further down. -/
def shift (offset : Nat) (stream : TokenStream) : TokenStream :=
  { stream with
    lineNumber := stream.lineNumber + offset
    queue := stream.queue.map (Token.shift offset) }

variable (offset : Nat)

private theorem locate_shift (line : Nat) (lexemes : List Lexeme) :
    locate (line + offset) lexemes = (locate line lexemes).map (Token.shift offset) := by
  rw [locate, locate, List.map_map]
  rfl

private theorem nextLine_shift {lineNumber : Nat}
    (hbound : lineNumber + offset + 1 < Json.natBound) :
    nextLine (lineNumber + offset) = nextLine lineNumber + offset := by
  rw [nextLine_eq_add_one hbound, nextLine_eq_add_one (by omega), Nat.add_right_comm]

private theorem readLines_shift {lineNumber : Nat} {lines : List String}
    (hbound : lineNumber + offset + lines.length < Json.natBound) (inComment : Bool) :
    readLines (lineNumber + offset) inComment lines =
      ((readLines lineNumber inComment lines).1.map (Token.shift offset),
        (readLines lineNumber inComment lines).2.shift offset) := by
  induction lines generalizing lineNumber inComment with
  | nil => rfl
  | cons line rest ih =>
      rw [List.length_cons] at hbound
      have hnumber : nextLine lineNumber = lineNumber + 1 := nextLine_eq_add_one (by omega)
      rw [readLines, readLines, nextLine_shift offset (by omega), locate_shift]
      cases hlocate : locate (nextLine lineNumber) (Scan.line inComment line).lexemes with
      | nil =>
          simp only [List.map_nil]
          exact ih (by omega) _
      | cons token queue =>
          simp only [List.map_cons]
          rfl

theorem next_shift {stream : TokenStream} (hbounded : (stream.shift offset).Bounded) :
    (stream.shift offset).next =
      (stream.next.1.map (Token.shift offset), stream.next.2.shift offset) := by
  have hqueue : (stream.shift offset).queue = stream.queue.map (Token.shift offset) := rfl
  rw [next, next, hqueue]
  cases stream.queue with
  | nil => exact readLines_shift offset hbounded _
  | cons token queue => rfl

end TokenStream

/-! ## Findings -/

/-- Whether two findings are about the same operator, the second one some lines further
down. -/
def Diagnostic.ShiftedBy (offset : Nat) (before after : Diagnostic) : Prop :=
  ∃ text line, before = unknownOperatorFinding text line ∧
    after = unknownOperatorFinding text (line + offset)

/-! ## Assemblers -/

open ParseError (shiftResult)

namespace Assembler

/-- Whether two assemblers are at the same place in the same script, the second one some lines
further down. -/
structure ShiftedBy (offset : Nat) (before after : Assembler) : Prop where
  strictOperators : after.strictOperators = before.strictOperators
  maxDepth : after.maxDepth = before.maxDepth
  builder : after.builder = before.builder.map (Builder.shift offset)
  remark : after.remark = before.remark
  diagnostics : List.Forall₂ (Diagnostic.ShiftedBy offset) before.diagnostics after.diagnostics

/-- Whether two assemblers have taken the same token with the same effect, the second one some
lines further down. -/
structure TakenShifted (offset : Nat)
    (before after : Assembler × Except ParseError (Option Script)) : Prop where
  assembler : ShiftedBy offset before.1 after.1
  result : after.2 = shiftResult offset (Option.map (Script.shift offset)) before.2

variable {offset : Nat} {before after : Assembler}

theorem ShiftedBy.withBuilder (hshifted : ShiftedBy offset before after)
    (builder : Option Builder) :
    ShiftedBy offset { before with builder }
      { after with builder := builder.map (Builder.shift offset) } :=
  { hshifted with builder := rfl }

theorem ShiftedBy.openScript (hshifted : ShiftedBy offset before after) (line : Nat) :
    ShiftedBy offset (before.openScript line) (after.openScript (line + offset)) where
  strictOperators := hshifted.strictOperators
  maxDepth := hshifted.maxDepth
  builder := by
    simp only [Assembler.openScript, hshifted.maxDepth, Option.map_some, Builder.start_shift]
  remark := hshifted.remark
  diagnostics := hshifted.diagnostics

private theorem ShiftedBy.consumeOutside (hshifted : ShiftedBy offset before after)
    (token : Token) :
    ShiftedBy offset (before.consumeOutside token) (after.consumeOutside (token.shift offset)) := by
  have hkind : (token.shift offset).kind = token.kind := rfl
  have htext : (token.shift offset).text = token.text := rfl
  rw [Assembler.consumeOutside, Assembler.consumeOutside, hkind, htext, hshifted.remark]
  split
  · split
    · exact { hshifted with remark := rfl }
    · split
      · exact { hshifted with remark := rfl }
      · exact hshifted.openScript token.line
    · exact hshifted
  · exact hshifted

private theorem consumeName_shift (builder : Builder) (token : Token) :
    consumeName (builder.shift offset) (token.shift offset) =
      ((consumeName builder token).1.shift offset, (consumeName builder token).2) := by
  have hkind : (token.shift offset).kind = token.kind := rfl
  rw [consumeName, consumeName, hkind]
  cases token.kind <;> rfl

private theorem ShiftedBy.note (hshifted : ShiftedBy offset before after) (text : String)
    (line : Nat) :
    ShiftedBy offset
      { before with diagnostics := before.diagnostics ++ [unknownOperatorFinding text line] }
      { after with
        diagnostics := after.diagnostics ++ [unknownOperatorFinding text (line + offset)] } where
  strictOperators := hshifted.strictOperators
  maxDepth := hshifted.maxDepth
  builder := hshifted.builder
  remark := hshifted.remark
  diagnostics := List.rel_append hshifted.diagnostics (.cons ⟨text, line, rfl, rfl⟩ .nil)

/-- Both note the same operators, or refuse the same one. -/
private theorem ShiftedBy.checkOperator (hshifted : ShiftedBy offset before after)
    (step : Builder.Step) (line : Nat) :
    (∃ noted notedAfter, before.checkOperator step line = .ok noted ∧
        after.checkOperator step (line + offset) = .ok notedAfter ∧
          ShiftedBy offset noted notedAfter) ∨
      ∃ error, before.checkOperator step line = .error error ∧
        after.checkOperator step (line + offset) = .error (error.shift offset) := by
  cases step with
  | operator text =>
      cases hknown : (OperatorKind.ofText text).isKnown with
      | true =>
          exact .inl ⟨before, after, by simp [Assembler.checkOperator, hknown],
            by simp [Assembler.checkOperator, hknown], hshifted⟩
      | false =>
          have hsettings := hshifted.strictOperators
          cases hstrict : before.strictOperators with
          | true =>
              rw [hstrict] at hsettings
              refine .inr ⟨.invalidOperator text line, ?_, ?_⟩
              · simp [Assembler.checkOperator, hknown, hstrict]
              · simp [Assembler.checkOperator, hknown, hsettings, ParseError.shift]
          | false =>
              rw [hstrict] at hsettings
              refine .inl ⟨_, _, ?_, ?_, hshifted.note text line⟩
              · simp [Assembler.checkOperator, hknown, hstrict]
              · simp [Assembler.checkOperator, hknown, hsettings]
  | value | openBlock | openEnclosure | openConditional | openAlternate | close =>
      exact .inl ⟨before, after, rfl, rfl, hshifted⟩

private theorem ShiftedBy.build (hshifted : ShiftedBy offset before after) (builder : Builder)
    (step : Builder.Step) (line : Nat) :
    TakenShifted offset (before.build builder step line)
      (after.build (builder.shift offset) step (line + offset)) := by
  rw [Assembler.build, Assembler.build]
  rcases hshifted.checkOperator step line with
    ⟨noted, notedAfter, hbefore, hafter, hnoted⟩ | ⟨error, hbefore, hafter⟩
  · rw [hbefore, hafter]
    simp only [builder.apply_shift]
    cases builder.apply step line with
    | error error => exact ⟨hnoted, rfl⟩
    | ok next => exact ⟨hnoted.withBuilder (some next), rfl⟩
  · rw [hbefore, hafter]
    exact ⟨hshifted, rfl⟩

private theorem result_finish (builder : Builder) (line : Nat) :
    ((builder.shift offset).finish (line + offset)).map some =
      shiftResult offset (Option.map (Script.shift offset)) ((builder.finish line).map some) := by
  rw [builder.finish_shift]
  cases builder.finish line <;> rfl

private theorem ShiftedBy.consumeBody (hshifted : ShiftedBy offset before after)
    (builder : Builder) (token : Token) :
    TakenShifted offset (before.consumeBody builder token)
      (after.consumeBody (builder.shift offset) (token.shift offset)) := by
  have haction : Action.ofToken (token.shift offset) = Action.ofToken token := rfl
  rw [Assembler.consumeBody, Assembler.consumeBody, haction]
  split
  · exact ⟨hshifted.withBuilder (some builder), rfl⟩
  next step _ => exact hshifted.build builder step token.line
  · exact ⟨{ hshifted with remark := rfl }, result_finish builder token.line⟩
  · exact ⟨hshifted.openScript token.line, result_finish builder token.line⟩

/-- One token. -/
theorem ShiftedBy.consume (hshifted : ShiftedBy offset before after) (token : Token) :
    TakenShifted offset (before.consume token) (after.consume (token.shift offset)) := by
  cases hbuilder : before.builder with
  | none =>
      have hafter : after.builder = none := by rw [hshifted.builder, hbuilder]; rfl
      rw [Assembler.consume, Assembler.consume, hbuilder, hafter]
      exact ⟨hshifted.consumeOutside token, rfl⟩
  | some builder =>
      have hafter : after.builder = some (builder.shift offset) := by
        rw [hshifted.builder, hbuilder]
        rfl
      have hbetween : ShiftedBy offset { before with builder := none }
          { after with builder := none } := hshifted.withBuilder none
      cases hreading : builder.readingName with
      | false =>
          rw [consume_body hbuilder hreading, consume_body hafter hreading]
          exact hbetween.consumeBody builder token
      | true =>
          rw [consume_name hbuilder hreading, consume_name hafter hreading, consumeName_shift]
          rcases consumeName builder token with ⟨next, _ | _⟩
          · exact ⟨hshifted.withBuilder (some next), rfl⟩
          · exact hbetween.consumeBody next token

/-- What the second assembler does with the token, by what the first one does. -/
theorem ShiftedBy.consumed (hshifted : ShiftedBy offset before after) {token : Token}
    {next : Assembler} {result : Except ParseError (Option Script)}
    (hconsumed : before.consume token = (next, result)) :
    ∃ nextAfter, ShiftedBy offset next nextAfter ∧ after.consume (token.shift offset) =
      (nextAfter, shiftResult offset (Option.map (Script.shift offset)) result) := by
  obtain ⟨hassembler, hresult⟩ := hshifted.consume token
  rw [hconsumed] at hassembler hresult
  exact ⟨_, hassembler, Prod.ext rfl hresult⟩

end Assembler

/-! ## Parsers -/

namespace Parser

/-- Whether two parsers are at the same place of the same lines, the second one some lines
further down but below the bound. -/
structure ShiftedBy (offset : Nat) (before after : Parser) : Prop where
  stream : after.stream = before.stream.shift offset
  bounded : after.stream.Bounded
  assembler : Assembler.ShiftedBy offset before.assembler after.assembler
  finished : after.finished = before.finished

variable {offset : Nat}

theorem ShiftedBy.lineNumber {before after : Parser} (hshifted : ShiftedBy offset before after) :
    after.lineNumber = before.lineNumber + offset := by
  rw [Parser.lineNumber, Parser.lineNumber, hshifted.stream]
  rfl

theorem ShiftedBy.clearDiagnostics {before after : Parser}
    (hshifted : ShiftedBy offset before after) :
    ShiftedBy offset before.clearDiagnostics after.clearDiagnostics where
  stream := hshifted.stream
  bounded := hshifted.bounded
  assembler := { hshifted.assembler with diagnostics := .nil }
  finished := hshifted.finished

/-- A result, some lines further down. -/
def shiftNext (offset : Nat) :
    Option (Except ParseError Script) → Option (Except ParseError Script) :=
  Option.map (shiftResult offset (Script.shift offset))

private theorem ShiftedBy.pulled {before after : Parser} (hshifted : ShiftedBy offset before after)
    {token? : Option Token} {stream : TokenStream}
    (hpulled : before.stream.next = (token?, stream)) :
    after.stream.next = (token?.map (Token.shift offset), stream.shift offset) ∧
      (stream.shift offset).Bounded := by
  have hbounded := hshifted.bounded
  rw [hshifted.stream] at hbounded
  have hnext := hbounded.next
  rw [TokenStream.next_shift offset hbounded, hpulled] at hnext
  rw [hshifted.stream, TokenStream.next_shift offset hbounded, hpulled]
  exact ⟨rfl, hnext⟩

/-- One call for a result. -/
theorem ShiftedBy.next {before after : Parser} (hshifted : ShiftedBy offset before after) :
    after.next.1 = shiftNext offset before.next.1 ∧
      ShiftedBy offset before.next.2 after.next.2 := by
  fun_induction Parser.next before generalizing after with
  | case1 parser finished =>
    rw [next_of_finished (hshifted.finished.trans finished)]
    exact ⟨rfl, hshifted⟩
  | case2 parser finished stream pulled =>
    have hopen : ¬ after.finished = true := hshifted.finished ▸ finished
    obtain ⟨hpulled, hbounded⟩ := hshifted.pulled pulled
    rw [next_of_end hopen hpulled]
    refine ⟨?_, ⟨rfl, hbounded, hshifted.assembler, rfl⟩⟩
    rw [atEnd, atEnd, hshifted.assembler.builder]
    cases parser.assembler.builder with
    | none => rfl
    | some builder => exact congrArg some (builder.finish_shift offset _)
  | case3 parser finished token stream pulled assembler consumed ih =>
    have hopen : ¬ after.finished = true := hshifted.finished ▸ finished
    obtain ⟨nextAfter, hassembler, htaken⟩ := hshifted.assembler.consumed consumed
    obtain ⟨hpulled, hbounded⟩ := hshifted.pulled pulled
    rw [next_of_token hopen hpulled, htaken]
    exact ih ⟨rfl, hbounded, hassembler, hshifted.finished⟩
  | case4 parser finished token stream pulled assembler script consumed =>
    have hopen : ¬ after.finished = true := hshifted.finished ▸ finished
    obtain ⟨nextAfter, hassembler, htaken⟩ := hshifted.assembler.consumed consumed
    obtain ⟨hpulled, hbounded⟩ := hshifted.pulled pulled
    rw [next_of_token hopen hpulled, htaken]
    exact ⟨rfl, rfl, hbounded, hassembler, hshifted.finished⟩
  | case5 parser finished token stream pulled assembler error consumed =>
    have hopen : ¬ after.finished = true := hshifted.finished ▸ finished
    obtain ⟨nextAfter, hassembler, htaken⟩ := hshifted.assembler.consumed consumed
    obtain ⟨hpulled, hbounded⟩ := hshifted.pulled pulled
    rw [next_of_token hopen hpulled, htaken]
    exact ⟨rfl, rfl, hbounded, hassembler, rfl⟩

end Parser

/-- Whether two answers are the same, the second one some lines further down. -/
inductive Answer.ShiftedBy (offset : Nat) : Answer → Answer → Prop
  | result (result : Option (Except ParseError Script)) :
      ShiftedBy offset (.result result) (.result (Parser.shiftNext offset result))
  | findings {before after : List Diagnostic}
      (hfindings : List.Forall₂ (Diagnostic.ShiftedBy offset) before after) :
      ShiftedBy offset (.findings before) (.findings after)

namespace Parser

variable {offset : Nat}

/-- One call. -/
theorem ShiftedBy.call {before after : Parser} (hshifted : ShiftedBy offset before after)
    (call : Call) :
    (before.call call).1.ShiftedBy offset (after.call call).1 ∧
      ShiftedBy offset (before.call call).2 (after.call call).2 := by
  cases call with
  | next =>
      obtain ⟨hresult, hnext⟩ := hshifted.next
      refine ⟨?_, hnext⟩
      rw [Parser.call, Parser.call, hresult]
      exact .result _
  | takeDiagnostics => exact ⟨.findings hshifted.assembler.diagnostics, hshifted.clearDiagnostics⟩

theorem ShiftedBy.run {before after : Parser} (hshifted : ShiftedBy offset before after)
    (calls : List Call) :
    List.Forall₂ (Answer.ShiftedBy offset) (before.run calls).1 (after.run calls).1 ∧
      ShiftedBy offset (before.run calls).2 (after.run calls).2 := by
  induction calls generalizing before after with
  | nil => exact ⟨.nil, hshifted⟩
  | cons call calls ih =>
      obtain ⟨hanswer, hnext⟩ := hshifted.call call
      obtain ⟨hanswers, hlast⟩ := ih hnext
      rw [run_cons, run_cons]
      exact ⟨.cons hanswer hanswers, hlast⟩

end Parser

end SignalScript
