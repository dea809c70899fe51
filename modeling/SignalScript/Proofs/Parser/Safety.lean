import SignalScript.Proofs.Builder.Consistency
import SignalScript.Proofs.Parser.Invariant

/-!
# Parsers never blame themselves

Whatever lines a parser is given, and whatever its settings are, its builder
always stands at a position: it does at the beginning of a script, and every token
leads to another position.  So every state that a parser can get into is
consistent, and the errors that no text should lead to are never handed out.
-/

namespace SignalScript

/-- Whether a builder stands at a position. -/
def Builder.Placed (builder : Builder) : Prop :=
  ∃ (name : String) (line : Nat) (readingName : Bool) (maxDepth : Option Nat)
    (position : Position), builder = position.builder name line readingName maxDepth

namespace Builder

theorem placed_start (line : Nat) (maxDepth : Option Nat) : (start line maxDepth).Placed :=
  ⟨"", line, true, maxDepth, {}, rfl⟩

theorem Placed.pushName {builder : Builder} (hplaced : builder.Placed) (part : String) :
    (builder.pushName part).Placed := by
  obtain ⟨name, line, readingName, maxDepth, position, rfl⟩ := hplaced
  exact ⟨name ++ part, line, readingName, maxDepth, position, rfl⟩

theorem Placed.endName {builder : Builder} (hplaced : builder.Placed) :
    builder.endName.Placed := by
  obtain ⟨name, line, readingName, maxDepth, position, rfl⟩ := hplaced
  exact ⟨name, line, false, maxDepth, position, rfl⟩

theorem Placed.apply {builder next : Builder} (hplaced : builder.Placed) {step : Step}
    {line : Nat} (happly : builder.apply step line = .ok next) : next.Placed := by
  obtain ⟨name, first, readingName, maxDepth, position, rfl⟩ := hplaced
  obtain ⟨after, _, hnext⟩ := Position.exists_step_of_apply _ _ _ _ happly
  exact ⟨name, first, readingName, maxDepth, after, hnext⟩

theorem Placed.blameless_apply {builder : Builder} (hplaced : builder.Placed) (step : Step)
    (line : Nat) : Blameless (builder.apply step line) := by
  obtain ⟨name, first, readingName, maxDepth, position, rfl⟩ := hplaced
  rw [Position.apply_builder]
  exact blameless_map _ (position.blameless_step step maxDepth line)

theorem Placed.consistent {builder : Builder} (hplaced : builder.Placed) :
    builder.Consistent := by
  obtain ⟨name, line, readingName, maxDepth, position, rfl⟩ := hplaced
  exact position.consistent_builder name line readingName maxDepth

theorem blameless_finish (builder : Builder) (line : Nat) : Blameless (builder.finish line) := by
  rw [finish]
  split
  · exact blameless_ok _
  · exact blameless_error rfl

theorem placed_invariant : Invariant (fun _ => True) Placed where
  start _ maxDepth := placed_start _ maxDepth
  pushName _ _ hplaced := hplaced.pushName _
  endName hplaced := hplaced.endName
  apply _ _ hplaced happly := hplaced.apply happly

end Builder

namespace Assembler

private theorem placed_consumeName {builder : Builder} (hplaced : builder.Placed)
    (token : Token) : (consumeName builder token).1.Placed :=
  Builder.placed_invariant.consumeName hplaced trivial

theorem placed_consume {assembler : Assembler} (hplaced : assembler.Holds Builder.Placed)
    (token : Token) : (assembler.consume token).1.Holds Builder.Placed :=
  (Builder.placed_invariant.kept_consume hplaced trivial).assembler

private theorem blameless_checkOperator (assembler : Assembler) (step : Builder.Step)
    (line : Nat) : Blameless (assembler.checkOperator step line) := by
  unfold checkOperator
  split
  · split
    · exact blameless_ok _
    · split
      · exact blameless_error rfl
      · exact blameless_ok _
  · exact blameless_ok _

private theorem blameless_build (assembler : Assembler) {builder : Builder}
    (hplaced : builder.Placed) (step : Builder.Step) (line : Nat) :
    Blameless (assembler.build builder step line).2 := by
  have hcheck := blameless_checkOperator assembler step line
  have happly := hplaced.blameless_apply step line
  rw [build]
  split
  next error herror => exact blameless_error (hcheck error herror)
  next checked hchecked =>
    split
    next error herror => exact blameless_error (happly error herror)
    next next hnext => exact blameless_ok _

private theorem blameless_consumeBody (assembler : Assembler) {builder : Builder}
    (hplaced : builder.Placed) (token : Token) :
    Blameless (assembler.consumeBody builder token).2 := by
  rw [consumeBody]
  split
  · exact blameless_ok _
  · exact blameless_build _ hplaced _ _
  · exact blameless_map _ (builder.blameless_finish _)
  · exact blameless_map _ (builder.blameless_finish _)

/-- One token, whatever it is. -/
theorem blameless_consume {assembler : Assembler} (hplaced : assembler.Holds Builder.Placed)
    (token : Token) : Blameless (assembler.consume token).2 := by
  rw [consume]
  split
  · exact blameless_ok _
  next builder hbuilder =>
    have hholds := hplaced builder hbuilder
    have hname := placed_consumeName hholds token
    dsimp only
    split
    · split
      · exact blameless_ok _
      next next hnext =>
        rw [hnext] at hname
        exact blameless_consumeBody _ hname token
    · exact blameless_consumeBody _ hholds token

end Assembler

namespace Parser

/-- The states that a parser of lines can get into: between two results, between
two tokens, and with its findings taken away. -/
inductive Reachable (lines : List String) (options : Options) : Parser → Prop
  | start : Reachable lines options (.ofLines lines options)
  | next {parser : Parser} (hreach : Reachable lines options parser) :
      Reachable lines options parser.next.2
  | token {parser : Parser} {token : Token} {stream : TokenStream} {assembler : Assembler}
      {ended : Option Script} (hreach : Reachable lines options parser)
      (hopen : parser.finished = false) (hpulled : parser.stream.next = (some token, stream))
      (hconsumed : parser.assembler.consume token = (assembler, .ok ended)) :
      Reachable lines options { parser with stream, assembler }
  | clearDiagnostics {parser : Parser} (hreach : Reachable lines options parser) :
      Reachable lines options parser.clearDiagnostics

/-- What every token keeps of an assembler holds in every state. -/
theorem Reachable.holds {lines : List String} {options : Options} {holds : Assembler → Prop}
    (hstart : holds (.ofOptions options))
    (hconsume : ∀ assembler token, holds assembler → holds (assembler.consume token).1)
    (hclear : ∀ assembler, holds assembler → holds { assembler with diagnostics := [] })
    {parser : Parser} (hreach : Reachable lines options parser) : holds parser.assembler := by
  induction hreach with
  | start => exact hstart
  | next hreach ih => exact holds_next hconsume _ ih
  | @token _ token _ _ _ hreach hopen hpulled hconsumed ih =>
      have hkept := hconsume _ token ih
      rwa [hconsumed] at hkept
  | clearDiagnostics hreach ih => exact hclear _ ih

theorem placed_of_reachable {lines : List String} {options : Options} {parser : Parser}
    (hreach : Reachable lines options parser) : parser.assembler.Holds Builder.Placed :=
  hreach.holds (Assembler.holds_none rfl) (fun _ token hplaced =>
    Assembler.placed_consume hplaced token) fun _ hplaced => hplaced

/-- Everything up to the next result. -/
theorem blameless_next (parser : Parser) (hplaced : parser.assembler.Holds Builder.Placed) :
    ∀ result, parser.next.1 = some result → Blameless result := by
  fun_induction next parser with
  | case1 parser finished => simp
  | case2 parser finished stream pulled ended =>
    intro result hresult
    obtain ⟨builder, -, rfl⟩ := Option.map_eq_some_iff.mp hresult
    exact builder.blameless_finish _
  | case3 parser finished token stream pulled assembler consumed ih =>
    apply ih
    have hafter := Assembler.placed_consume hplaced token
    rw [consumed] at hafter
    exact hafter
  | case4 parser finished token stream pulled assembler script consumed =>
    rintro result ⟨⟩
    exact blameless_ok _
  | case5 parser finished token stream pulled assembler error consumed =>
    have hblameless := Assembler.blameless_consume hplaced token
    rw [consumed] at hblameless
    rintro result ⟨⟩
    exact blameless_error (hblameless error rfl)

/-- No result of a parser is an internal error, and every state that it can get
into is consistent. -/
theorem internal_errors_unreachable {lines : List String} {options : Options} {parser : Parser}
    (hreach : Reachable lines options parser) :
    (∀ error, parser.next.1 = some (.error error) → error.isInternal = false) ∧
      ∀ builder, parser.assembler.builder = some builder → builder.Consistent := by
  have hplaced := placed_of_reachable hreach
  constructor
  · intro error herror
    exact blameless_next parser hplaced _ herror error rfl
  · intro builder hbuilder
    exact (hplaced builder hbuilder).consistent

/-- At the end of these lines a conditional waits for its alternate. -/
theorem internal_errors_unreachable_else :
    ∃ builder, (ofLines ["SCRIPT A", "IF (X) Y; ELSE"] {}).next.2.assembler.builder =
        some builder ∧ builder.phase? = some .awaitingAlternate ∧ builder.Consistent := by
  have hreach : Reachable ["SCRIPT A", "IF (X) Y; ELSE"] {}
      (ofLines ["SCRIPT A", "IF (X) Y; ELSE"] {}).next.2 := .next .start
  have hphase : (ofLines ["SCRIPT A", "IF (X) Y; ELSE"] {}).next.2.assembler.builder.bind
      Builder.phase? = some .awaitingAlternate := by
    decide +kernel
  obtain ⟨builder, hbuilder, hwaits⟩ := Option.bind_eq_some_iff.mp hphase
  exact ⟨builder, hbuilder, hwaits, (internal_errors_unreachable hreach).2 builder hbuilder⟩

end Parser

end SignalScript
