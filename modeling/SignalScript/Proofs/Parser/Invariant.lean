import SignalScript.Proofs.Parser.Results

/-!
# Invariants of builders

What the steps of a builder keep true is true of every script that is being read, and
of every builder that has finished one.
-/

namespace SignalScript

/-- A property of builders that every token keeps, as long as it is one of those
allowed. -/
structure Builder.Invariant (allowed : Token → Prop) (holds : Builder → Prop) : Prop where
  start {token : Token} (hallowed : allowed token) (maxDepth : Option Nat) :
    holds (.start token.line maxDepth)
  pushName {builder : Builder} {token : Token} (hallowed : allowed token)
    (hkind : token.kind = .value ∨ token.kind = .operator) (hbuilder : holds builder) :
    holds (builder.pushName token.text)
  endName {builder : Builder} (hbuilder : holds builder) : holds builder.endName
  apply {builder next : Builder} {token : Token} {step : Builder.Step}
    (hallowed : allowed token) (haction : Action.ofToken token = .build step)
    (hbuilder : holds builder) (happly : builder.apply step token.line = .ok next) : holds next

namespace Assembler

/-- Whether the script being read, if there is one, has a property. -/
def Holds (holds : Builder → Prop) (assembler : Assembler) : Prop :=
  ∀ builder, assembler.builder = some builder → holds builder

theorem holds_none {holds : Builder → Prop} {assembler : Assembler}
    (hnone : assembler.builder = none) : assembler.Holds holds := by
  intro builder hbuilder
  simp [hnone] at hbuilder

theorem holds_some {holds : Builder → Prop} {assembler : Assembler} {builder : Builder}
    (hbuilder : holds builder) :
    ({ assembler with builder := some builder } : Assembler).Holds holds := by
  intro other hother
  obtain rfl := Option.some.inj hother
  exact hbuilder

theorem Holds.imp {first second : Builder → Prop} {assembler : Assembler}
    (hassembler : assembler.Holds first) (himp : ∀ builder, first builder → second builder) :
    assembler.Holds second :=
  fun builder hbuilder => himp builder (hassembler builder hbuilder)

/-- The check of an operator changes nothing but the findings. -/
theorem checkOperator_eq {assembler checked : Assembler} {step : Builder.Step} {line : Nat}
    (hcheck : assembler.checkOperator step line = .ok checked) :
    checked = { assembler with diagnostics := checked.diagnostics } := by
  unfold checkOperator at hcheck
  split at hcheck
  · split at hcheck
    · rw [Except.ok.inj hcheck]
    · split at hcheck
      · cases hcheck
      · rw [← Except.ok.inj hcheck]
  · rw [Except.ok.inj hcheck]

end Assembler

namespace Builder.Invariant

open Assembler

variable {allowed : Token → Prop} {holds : Builder → Prop}

theorem openScript (hinvariant : Invariant allowed holds) (assembler : Assembler) {token : Token}
    (hallowed : allowed token) : (assembler.openScript token.line).Holds holds :=
  holds_some (hinvariant.start hallowed assembler.maxDepth)

private theorem consumeOutside (hinvariant : Invariant allowed holds) {assembler : Assembler}
    (hnone : assembler.builder = none) {token : Token} (hallowed : allowed token) :
    (assembler.consumeOutside token).Holds holds := by
  rw [Assembler.consumeOutside]
  split
  · split
    · exact holds_none hnone
    · split
      · exact holds_none hnone
      · exact hinvariant.openScript _ hallowed
    · exact holds_none hnone
  · exact holds_none hnone

theorem consumeName (hinvariant : Invariant allowed holds) {builder : Builder}
    (hbuilder : holds builder) {token : Token} (hallowed : allowed token) :
    holds (Assembler.consumeName builder token).1 := by
  rw [Assembler.consumeName]
  split
  next hkind => exact hinvariant.pushName hallowed (.inl hkind) hbuilder
  next hkind => exact hinvariant.pushName hallowed (.inr hkind) hbuilder
  · exact hbuilder
  · exact hbuilder
  · exact hbuilder
  all_goals exact hinvariant.endName hbuilder

/-- What a token does to the script being read, and what the script is that it
ends. -/
structure Kept (holds : Builder → Prop) (taken : Assembler × Except ParseError (Option Script)) :
    Prop where
  assembler : taken.1.Holds holds
  script : ∀ script, taken.2 = .ok (some script) →
    ∃ (builder : Builder) (line : Nat), holds builder ∧ builder.finish line = .ok script

theorem Kept.imp {first second : Builder → Prop}
    {taken : Assembler × Except ParseError (Option Script)} (hkept : Kept first taken)
    (himp : ∀ builder, first builder → second builder) : Kept second taken where
  assembler := hkept.assembler.imp himp
  script script hscript := by
    obtain ⟨builder, line, hbuilder, hfinish⟩ := hkept.script script hscript
    exact ⟨builder, line, himp builder hbuilder, hfinish⟩

private theorem kept_finish {builder : Builder} (hbuilder : holds builder) (line : Nat)
    {assembler : Assembler} (hassembler : assembler.Holds holds) :
    Kept holds (assembler, (builder.finish line).map some) := by
  refine ⟨hassembler, ?_⟩
  intro script hscript
  cases hfinish : builder.finish line with
  | error error => simp [hfinish, Except.map] at hscript
  | ok finished =>
      rw [hfinish] at hscript
      obtain rfl := Option.some.inj (Except.ok.inj hscript)
      exact ⟨builder, line, hbuilder, hfinish⟩

private theorem build (hinvariant : Invariant allowed holds) {assembler : Assembler}
    (hnone : assembler.builder = none) {builder : Builder} (hbuilder : holds builder)
    {token : Token} (hallowed : allowed token) {step : Builder.Step}
    (haction : Action.ofToken token = .build step) :
    Kept holds (assembler.build builder step token.line) := by
  rw [Assembler.build]
  split
  next error herror => exact ⟨holds_none hnone, by simp⟩
  next checked hchecked =>
    have hbetween : checked.builder = none := by
      rw [checkOperator_eq hchecked]
      exact hnone
    split
    next error herror => exact ⟨holds_none hbetween, by simp⟩
    next next hnext =>
      exact ⟨holds_some (hinvariant.apply hallowed haction hbuilder hnext), by simp⟩

private theorem consumeBody (hinvariant : Invariant allowed holds) {assembler : Assembler}
    (hnone : assembler.builder = none) {builder : Builder} (hbuilder : holds builder)
    {token : Token} (hallowed : allowed token) :
    Kept holds (assembler.consumeBody builder token) := by
  rw [Assembler.consumeBody]
  split
  · exact ⟨holds_some hbuilder, by simp⟩
  next step haction => exact hinvariant.build hnone hbuilder hallowed haction
  · exact kept_finish hbuilder _ (holds_none hnone)
  · exact kept_finish hbuilder _ (hinvariant.openScript _ hallowed)

/-- Taking a token keeps an invariant. -/
theorem kept_consume (hinvariant : Invariant allowed holds) {assembler : Assembler}
    (hassembler : assembler.Holds holds) {token : Token} (hallowed : allowed token) :
    Kept holds (assembler.consume token) := by
  rw [Assembler.consume]
  cases hbuilder : assembler.builder with
  | none => exact ⟨hinvariant.consumeOutside hbuilder hallowed, by simp⟩
  | some builder =>
      have hholds := hassembler builder hbuilder
      have hname := hinvariant.consumeName hholds hallowed
      simp only
      split
      · split
        next next hnext =>
          rw [hnext] at hname
          exact ⟨holds_some hname, by simp⟩
        next next hnext =>
          rw [hnext] at hname
          exact hinvariant.consumeBody rfl hname hallowed
      · exact hinvariant.consumeBody rfl hholds hallowed

/-- If the tokens that are left carry a property of builders on from one to the next, every
script of a list of results is finished by a builder with the property for some of them. -/
theorem exists_finish_of_kept {holds : List Token → Builder → Prop} {tokens : List Token}
    (hkept : ∀ {token : Token} {rest : List Token} {assembler : Assembler},
      token :: rest <:+ tokens → assembler.Holds (holds (token :: rest)) →
        Kept (holds rest) (assembler.consume token))
    {assembler : Assembler} (hassembler : assembler.Holds (holds tokens)) {endLine : Nat}
    {script : Script} (hscript : .ok script ∈ assembler.results endLine tokens) :
    ∃ (rest : List Token) (builder : Builder) (line : Nat),
      holds rest builder ∧ builder.finish line = .ok script := by
  induction tokens generalizing assembler with
  | nil =>
      rw [results, Option.mem_toList, Option.map_eq_some_iff] at hscript
      obtain ⟨builder, hbuilder, hfinish⟩ := hscript
      exact ⟨[], builder, endLine, hassembler builder hbuilder, hfinish⟩
  | cons token tokens ih =>
      have htaken := hkept (List.suffix_refl _) hassembler
      have hlater : ∀ {other : Token} {rest : List Token} {assembler : Assembler},
          other :: rest <:+ tokens → assembler.Holds (holds (other :: rest)) →
            Kept (holds rest) (assembler.consume other) :=
        fun hsuffix => hkept (hsuffix.trans (List.suffix_cons _ _))
      rw [results] at hscript
      split at hscript
      next next hconsume =>
        rw [hconsume] at htaken
        exact ih hlater htaken.assembler hscript
      next next ended hconsume =>
        rw [hconsume] at htaken
        rcases List.mem_cons.mp hscript with hfirst | hrest
        · obtain rfl := Except.ok.inj hfirst
          obtain ⟨builder, line, hholds, hfinish⟩ := htaken.script script rfl
          exact ⟨tokens, builder, line, hholds, hfinish⟩
        · exact ih hlater htaken.assembler hrest
      next error hconsume => simp at hscript

/-- Every script of a list of results is finished by a builder with the property. -/
theorem exists_finish (hinvariant : Invariant allowed holds) {assembler : Assembler}
    (hassembler : assembler.Holds holds) {tokens : List Token}
    (hallowed : ∀ token ∈ tokens, allowed token) {endLine : Nat} {script : Script}
    (hscript : .ok script ∈ assembler.results endLine tokens) :
    ∃ (builder : Builder) (line : Nat), holds builder ∧ builder.finish line = .ok script := by
  have hkept : ∀ {token : Token} {rest : List Token} {assembler : Assembler},
      token :: rest <:+ tokens → assembler.Holds holds →
        Kept holds (assembler.consume token) :=
    fun hsuffix hassembler =>
      hinvariant.kept_consume hassembler (hallowed _ (hsuffix.subset (.head _)))
  obtain ⟨-, builder, line, hholds, hfinish⟩ :=
    @exists_finish_of_kept (fun _ => holds) tokens hkept assembler hassembler endLine script hscript
  exact ⟨builder, line, hholds, hfinish⟩

end Builder.Invariant

/-- What every token keeps of an assembler, a parser keeps up to its next result. -/
theorem Parser.holds_next {holds : Assembler → Prop}
    (hconsume : ∀ assembler token, holds assembler → holds (assembler.consume token).1)
    (parser : Parser) (hparser : holds parser.assembler) : holds parser.next.2.assembler := by
  fun_induction Parser.next parser with
  | case1 parser finished => exact hparser
  | case2 parser finished stream pulled ended => exact hparser
  | case3 parser finished token stream pulled assembler consumed ih =>
    apply ih
    have hkept := hconsume _ token hparser
    rwa [consumed] at hkept
  | case4 parser finished token stream pulled assembler script consumed =>
    have hkept := hconsume _ token hparser
    rwa [consumed] at hkept
  | case5 parser finished token stream pulled assembler error consumed =>
    have hkept := hconsume _ token hparser
    rwa [consumed] at hkept

/-- Every script of a text is finished by a builder with an invariant that the tokens
of the text keep. -/
theorem Parser.exists_finish {allowed : Token → Prop} {holds : Builder → Prop}
    (hinvariant : Builder.Invariant allowed holds) {lines : List String} {options : Options}
    (hallowed : ∀ token ∈ TokenStream.tokensOfLines options.lineOffset false lines, allowed token)
    {script : Script} (hscript : .ok script ∈ (Parser.ofLines lines options).results) :
    ∃ (builder : Builder) (line : Nat), holds builder ∧ builder.finish line = .ok script := by
  rw [results_ofLines] at hscript
  exact hinvariant.exists_finish (Assembler.holds_none rfl) hallowed hscript

end SignalScript
