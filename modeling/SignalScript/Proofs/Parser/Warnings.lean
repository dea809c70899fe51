import SignalScript.Proofs.Builder.Leaves
import SignalScript.Proofs.Parser.Sections
import SignalScript.Proofs.Token.Found

/-!
# Warnings about leaves

A lenient assembler notes an operator that the language does not have when it becomes a leaf
of the script being read.  So for each token that it takes, the leaves of the script and the
warnings about them grow together.
-/

namespace SignalScript

/-! ## Warnings about leaves -/

/-- The warning about an operator that the language does not have. -/
def leafWarning? : NodeKind × Nat → Option Diagnostic
  | (.operator text, line) =>
    if OperatorKind.ofText text = .other then
      some {
        kind := "sigscr.operator.unknown"
        severity := .warning
        line
        message := "invalid operator token " ++ text ++ " in line number " ++ toString line
        related := some (.object [("operator", .string text)]) }
    else
      none
  | _ => none

theorem leafWarning?_operator (text : String) (line : Nat) :
    leafWarning? (.operator text, line) =
      if (OperatorKind.ofText text).isKnown then none
      else some (unknownOperatorFinding text line) := by
  rw [leafWarning?]
  cases OperatorKind.ofText text <;> rfl

/-- Whether leaves follow one another down to a line. -/
structure LeavesDownTo (line : Nat) (leaves : List (NodeKind × Nat)) : Prop where
  ordered : leaves.Pairwise fun first second => first.2 ≤ second.2
  above : ∀ leaf ∈ leaves, leaf.2 ≤ line

namespace LeavesDownTo

variable {line : Nat} {leaves : List (NodeKind × Nat)}

theorem mono (hleaves : LeavesDownTo line leaves) {later : Nat} (hlater : line ≤ later) :
    LeavesDownTo later leaves :=
  ⟨hleaves.ordered, fun leaf hleaf => Nat.le_trans (hleaves.above leaf hleaf) hlater⟩

/-- A leaf on the last line comes behind the others. -/
theorem concat (hleaves : LeavesDownTo line leaves) (kind : NodeKind) :
    LeavesDownTo line (leaves ++ [(kind, line)]) where
  ordered := by
    refine List.pairwise_append.mpr ⟨hleaves.ordered, List.pairwise_singleton _ _, ?_⟩
    intro first hfirst second hsecond
    obtain rfl := List.mem_singleton.mp hsecond
    exact hleaves.above first hfirst
  above leaf hleaf := by
    rcases List.mem_append.mp hleaf with hold | hnew
    · exact hleaves.above leaf hold
    · obtain rfl := List.mem_singleton.mp hnew
      exact Nat.le_refl _

end LeavesDownTo

/-- Whether the operators among leaves are spelled with words or symbols of the language. -/
def LeavesSpelled (leaves : List (NodeKind × Nat)) : Prop :=
  ∀ text line, (.operator text, line) ∈ leaves → text ∈ operatorWords ++ symbols

namespace LeavesSpelled

variable {leaves : List (NodeKind × Nat)}

theorem concat (hleaves : LeavesSpelled leaves) {kind : NodeKind} (line : Nat)
    (hspelled : ∀ text, kind = .operator text → text ∈ operatorWords ++ symbols) :
    LeavesSpelled (leaves ++ [(kind, line)]) := by
  intro text other hleaf
  rcases List.mem_append.mp hleaf with hold | hnew
  · exact hleaves text other hold
  · exact hspelled text (Prod.mk.inj (List.mem_singleton.mp hnew)).1.symm

end LeavesSpelled

/-! ## Tokens -/

/-- What a builder finishes is what it has built. -/
theorem Builder.script_of_finish {builder : Builder} {line : Nat} {script : Script}
    (hfinish : builder.finish line = .ok script) : script = builder.script := by
  rw [finish] at hfinish
  split at hfinish
  · exact (Except.ok.inj hfinish).symm
  · cases hfinish

/-- An operator is read from a word or from its own symbols. -/
theorem Action.operator_of_ofToken {token : Token} {text : String}
    (haction : Action.ofToken token = .build (.operator text)) :
    text ∈ operatorWords ∨ token.lexeme = ⟨.operator, text⟩ := by
  rcases token with ⟨kind, spelling, line⟩
  cases kind with
  | operator =>
      cases haction
      exact .inr rfl
  | value =>
      simp only [Action.ofToken, Action.ofValue] at haction
      split at haction
      all_goals try cases haction
      split at haction
      next hword =>
        cases haction
        exact .inl hword
      · cases haction
  | separator | tab | comma | lineEnd | statementEnd | bracketOpen | bracketClose | blockOpen
  | blockClose => cases haction

namespace Assembler

variable {assembler next : Assembler} {builder : Builder} {token : Token} {ended : Option Script}

/-- The leaves of the script being read. -/
def leaves (assembler : Assembler) : List (NodeKind × Nat) :=
  (assembler.builder.map (·.script.leaves)).getD []

theorem leaves_of_none (hnone : assembler.builder = none) : assembler.leaves = [] := by
  rw [leaves, hnone]
  rfl

theorem leaves_of_some (hbuilder : assembler.builder = some builder) :
    assembler.leaves = builder.script.leaves := by
  rw [leaves, hbuilder]
  rfl

/-- The assembler with more findings behind the others. -/
def note (assembler : Assembler) (findings : List Diagnostic) : Assembler :=
  { assembler with diagnostics := assembler.diagnostics ++ findings }

theorem note_nil (assembler : Assembler) : assembler.note [] = assembler := by
  rw [note, List.append_nil]

/-- A lenient assembler notes the warning about the leaf that a step adds. -/
theorem checkOperator_lenient (hlenient : assembler.strictOperators = false)
    (step : Builder.Step) (line : Nat) :
    assembler.checkOperator step line =
      .ok (assembler.note ((step.leaf? line).toList.filterMap leafWarning?)) := by
  cases step with
  | operator text =>
      cases hknown : (OperatorKind.ofText text).isKnown with
      | true => simp [checkOperator, hknown, Builder.Step.leaf?, leafWarning?_operator, note_nil]
      | false =>
          simp [checkOperator, hknown, hlenient, Builder.Step.leaf?, leafWarning?_operator, note]
  | value | openBlock | openEnclosure | openConditional | openAlternate | close =>
      exact congrArg Except.ok assembler.note_nil.symm

/-- What an assembler makes of a token: a leaf, with the warning about it, or none. -/
structure Reads (before : Assembler) (token : Token) (next : Assembler) (ended : Option Script)
    (leaf? : Option (NodeKind × Nat)) : Prop where
  leaves : ended.toList.flatMap Script.leaves ++ next.leaves = before.leaves ++ leaf?.toList
  diagnostics : next.diagnostics = before.diagnostics ++ leaf?.toList.filterMap leafWarning?
  line : ∀ leaf ∈ leaf?, leaf.2 = token.line
  spelled : ∀ text line, leaf? = some (.operator text, line) →
    text ∈ operatorWords ∨ token.lexeme = ⟨.operator, text⟩
  /-- Behind a script that ends nothing has been read. -/
  ended : ended.isSome = true → next.leaves = []

namespace Reads

/-- A token that ends no script and is no leaf. -/
theorem nothing (hleaves : next.leaves = assembler.leaves)
    (hdiagnostics : next.diagnostics = assembler.diagnostics) :
    Reads assembler token next none none where
  leaves := hleaves.trans (List.append_nil _).symm
  diagnostics := hdiagnostics.trans (List.append_nil _).symm
  line := nofun
  spelled := nofun
  ended := nofun

/-- A token that ends the script being read. -/
theorem finish (hleaves : builder.script.leaves = assembler.leaves) (hnext : next.leaves = [])
    (hdiagnostics : next.diagnostics = assembler.diagnostics) {line : Nat}
    (hfinish : (builder.finish line).map some = .ok ended) :
    Reads assembler token next ended none := by
  obtain rfl : ended = some builder.script := by
    cases hscript : builder.finish line with
    | error error =>
        rw [hscript] at hfinish
        cases hfinish
    | ok script =>
        rw [hscript] at hfinish
        rw [← Except.ok.inj hfinish, Builder.script_of_finish hscript]
  refine ⟨?_, hdiagnostics.trans (List.append_nil _).symm, nofun, nofun, fun _ => hnext⟩
  simp [hnext, hleaves]

/-- A step of the script being read. -/
theorem build (hlenient : assembler.strictOperators = false)
    (hleaves : builder.script.leaves = assembler.leaves) {step : Builder.Step}
    (haction : Action.ofToken token = .build step)
    (hbuild : ({ assembler with builder := none } : Assembler).build builder step token.line =
      (next, .ok ended)) : Reads assembler token next ended (step.leaf? token.line) := by
  have hbetween : ({ assembler with builder := none } : Assembler).strictOperators = false :=
    hlenient
  rw [Assembler.build, checkOperator_lenient hbetween] at hbuild
  cases happly : builder.apply step token.line with
  | error error => simp [happly] at hbuild
  | ok after =>
      simp only [happly] at hbuild
      cases hbuild
      have hafter := Builder.leaves_apply _ _ happly
      rw [hleaves] at hafter
      constructor
      case leaves => exact hafter
      case diagnostics => rfl
      case line => exact fun leaf hleaf => Builder.Step.line_of_leaf? hleaf
      case spelled =>
        intro text line hleaf
        rw [Builder.Step.operator_of_leaf? hleaf] at haction
        exact Action.operator_of_ofToken haction
      case ended => rintro ⟨⟩

theorem consumeBody (hlenient : assembler.strictOperators = false)
    (hleaves : builder.script.leaves = assembler.leaves)
    (hconsume : ({ assembler with builder := none } : Assembler).consumeBody builder token =
      (next, .ok ended)) : ∃ leaf?, Reads assembler token next ended leaf? := by
  rw [Assembler.consumeBody] at hconsume
  cases haction : Action.ofToken token with
  | skip =>
      simp only [haction] at hconsume
      cases hconsume
      exact ⟨none, nothing hleaves rfl⟩
  | build step =>
      simp only [haction] at hconsume
      exact ⟨_, build hlenient hleaves haction hconsume⟩
  | remark =>
      simp only [haction] at hconsume
      obtain ⟨rfl, hfinish⟩ := Prod.mk.inj hconsume
      exact ⟨none, finish hleaves rfl rfl hfinish⟩
  | nextScript =>
      simp only [haction] at hconsume
      obtain ⟨rfl, hfinish⟩ := Prod.mk.inj hconsume
      exact ⟨none, finish hleaves rfl rfl hfinish⟩

end Reads

private theorem diagnostics_consumeOutside (assembler : Assembler) (token : Token) :
    (assembler.consumeOutside token).diagnostics = assembler.diagnostics := by
  rw [consumeOutside]
  split
  · split
    · rfl
    · split <;> rfl
    · rfl
  · rfl

private theorem leaves_consumeOutside (hnone : assembler.builder = none) (token : Token) :
    (assembler.consumeOutside token).leaves = [] := by
  rw [consumeOutside]
  split
  · split
    · exact leaves_of_none hnone
    · split
      · exact leaves_of_none hnone
      · rfl
    · exact leaves_of_none hnone
  · exact leaves_of_none hnone

/-- A name has no leaves, and its parts add none. -/
private theorem leaves_consumeName (builder : Builder) (token : Token) :
    (consumeName builder token).1.script.leaves = builder.script.leaves := by
  rw [consumeName]
  split <;> rfl

/-- One token that is not refused. -/
theorem exists_reads (hlenient : assembler.strictOperators = false)
    (hconsume : assembler.consume token = (next, .ok ended)) :
    ∃ leaf?, Reads assembler token next ended leaf? := by
  cases hbuilder : assembler.builder with
  | none =>
      rw [consume, hbuilder] at hconsume
      cases hconsume
      have hleaves := (leaves_consumeOutside hbuilder token).trans (leaves_of_none hbuilder).symm
      exact ⟨none, .nothing hleaves (diagnostics_consumeOutside assembler token)⟩
  | some builder =>
      have hleaves := (leaves_of_some hbuilder).symm
      cases hreading : builder.readingName with
      | false =>
          rw [consume_body hbuilder hreading] at hconsume
          exact Reads.consumeBody hlenient hleaves hconsume
      | true =>
          have hname := (leaves_consumeName builder token).trans hleaves
          rw [consume_name hbuilder hreading] at hconsume
          split at hconsume
          next after hafter =>
            cases hconsume
            rw [hafter] at hname
            exact ⟨none, .nothing hname rfl⟩
          next after hafter =>
            rw [hafter] at hname
            exact Reads.consumeBody hlenient hname hconsume

end Assembler

end SignalScript
