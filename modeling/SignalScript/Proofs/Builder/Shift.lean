import SignalScript.Builder
import SignalScript.Proofs.Tree.Shift

/-!
# Building further down

A builder writes down the lines that it is told and never looks at them.  If everything is
read some lines further down, the script grows the same way with all lines moved, and what is
refused is refused with the same error, on its line further down.
-/

namespace SignalScript

namespace ParseError

/-- The error, some lines further down. -/
def shift (offset : Nat) : ParseError → ParseError
  | .mismatchedClose expected found line => .mismatchedClose expected found (line + offset)
  | .unmatchedClose found line => .unmatchedClose found (line + offset)
  | .unclosedScript script opened line => .unclosedScript script opened (line + offset)
  | .elseWithoutIf line => .elseWithoutIf (line + offset)
  | .missingCondition line => .missingCondition (line + offset)
  | .misplacedBlock construct line => .misplacedBlock construct (line + offset)
  | .unexpected found line => .unexpected found (line + offset)
  | .nestingTooDeep depth line => .nestingTooDeep depth (line + offset)
  | .missingAlternateReturn line => .missingAlternateReturn (line + offset)
  | .invalidOperator text line => .invalidOperator text (line + offset)

/-- A result, some lines further down. -/
def shiftResult {α : Type} (offset : Nat) (shift : α → α) :
    Except ParseError α → Except ParseError α
  | .error error => .error (error.shift offset)
  | .ok value => .ok (shift value)

theorem shiftResult_bind {α β : Type} {offset : Nat} {shift : α → α} {shiftNext : β → β}
    {first moved : Except ParseError α} {second movedSecond : α → Except ParseError β}
    (hfirst : moved = shiftResult offset shift first)
    (hsecond : ∀ value, movedSecond (shift value) = shiftResult offset shiftNext (second value)) :
    moved >>= movedSecond = shiftResult offset shiftNext (first >>= second) := by
  subst hfirst
  cases first with
  | error error => rfl
  | ok value => exact hsecond value

end ParseError

namespace Builder

open ParseError (shiftResult shiftResult_bind)

/-- The builder, some lines further down. -/
def shift (offset : Nat) (builder : Builder) : Builder :=
  { builder with script := builder.script.shift offset }

variable (offset : Nat) (builder : Builder) (line : Nat)

@[simp]
theorem kind_shift : (builder.shift offset).kind = builder.kind :=
  builder.script.kind_shift offset builder.cursor

@[simp]
theorem phase?_shift : (builder.shift offset).phase? = builder.phase? :=
  builder.script.phase?_shift offset builder.cursor

theorem start_shift (maxDepth : Option Nat) :
    start (line + offset) maxDepth = (start line maxDepth).shift offset := by
  simp [start, shift, Script.opened, Script.shift, Node.shift]

/-! ## Opening nodes -/

theorem openChild_shift (kind : NodeKind) :
    (builder.shift offset).openChild kind (line + offset) =
      shiftResult offset (shift offset) (builder.openChild kind line) := by
  simp only [openChild, shift, Script.push_shift, Script.nextId_shift, Script.depth_shift]
  split
  · rfl
  · split
    · rfl
    · rfl

theorem requireSlot_shift :
    (builder.shift offset).requireSlot (line + offset) =
      shiftResult offset id (builder.requireSlot line) := by
  rw [requireSlot, requireSlot, phase?_shift]
  split
  · rfl
  · rfl
  · rfl
  · rfl

theorem enterExpression_shift :
    (builder.shift offset).enterExpression (line + offset) =
      shiftResult offset (shift offset) (builder.enterExpression line) := by
  rw [enterExpression, enterExpression, kind_shift]
  split
  · rfl
  · rfl
  · exact openChild_shift _ _ _ _
  · exact openChild_shift _ _ _ _
  · exact shiftResult_bind (requireSlot_shift _ _ _) fun _ => openChild_shift _ _ _ _
  · rfl
  · rfl

private theorem addLeaf_shift (leaf : NodeKind) :
    (builder.shift offset).addLeaf leaf (line + offset) =
      shiftResult offset (shift offset) (builder.addLeaf leaf line) := by
  apply shiftResult_bind (enterExpression_shift offset builder line)
  intro target
  simp only [shift, Script.push_shift]
  rfl

private theorem openBlock_shift :
    (builder.shift offset).openBlock (line + offset) =
      shiftResult offset (shift offset) (builder.openBlock line) := by
  rw [openBlock, openBlock, kind_shift]
  split
  · rfl
  · rfl
  · exact shiftResult_bind (requireSlot_shift _ _ _) fun _ => openChild_shift _ _ _ _
  · exact openChild_shift _ _ _ _

private theorem openEnclosure_shift :
    (builder.shift offset).openEnclosure (line + offset) =
      shiftResult offset (shift offset) (builder.openEnclosure line) := by
  rw [openEnclosure, openEnclosure, phase?_shift]
  split
  · exact openChild_shift _ _ _ _
  · exact shiftResult_bind (enterExpression_shift _ _ _) fun _ => openChild_shift _ _ _ _

private theorem openConditional_shift :
    (builder.shift offset).openConditional (line + offset) =
      shiftResult offset (shift offset) (builder.openConditional line) := by
  rw [openConditional, openConditional, kind_shift]
  split
  · rfl
  · rfl
  · exact shiftResult_bind (requireSlot_shift _ _ _) fun _ => openChild_shift _ _ _ _
  · exact openChild_shift _ _ _ _

/-! ## Completing nodes -/

private theorem mark_shift (script : Script) (id : Nat) (marked : Bool) :
    ((script.shift offset).modify id fun node => { node with alternateReturn := marked }) =
      (script.modify id fun node => { node with alternateReturn := marked }).shift offset :=
  script.modify_shift offset id fun _ => rfl

private theorem mapPhase_shift (script : Script) (id : Nat) (f : Phase → Phase) :
    (script.shift offset).modify id (Node.mapPhase f) =
      (script.modify id (Node.mapPhase f)).shift offset :=
  script.modify_shift offset id fun node => node.mapPhase_shift offset f

private theorem returnFromAlternate_shift (conditional : Nat) :
    (builder.shift offset).returnFromAlternate conditional (line + offset) =
      shiftResult offset (shift offset) (builder.returnFromAlternate conditional line) := by
  simp only [returnFromAlternate, shift, Script.ancestors_shift, Script.node_shift,
    Node.alternateReturn_shift, mark_shift]
  split
  · rfl
  · rfl

/-- The conditionals that are complete with another one are so further down. -/
private theorem fill_shift (script : Script) (ids : List Nat) :
    ids.foldl (fun script id => script.modify id fun node =>
        (node.mapPhase Phase.filled).clearCurrent) (script.shift offset) =
      (ids.foldl (fun script id => script.modify id fun node =>
        (node.mapPhase Phase.filled).clearCurrent) script).shift offset := by
  induction ids generalizing script with
  | nil => rfl
  | cons id ids ih =>
      have hfill : ∀ node : Node, ((node.shift offset).mapPhase Phase.filled).clearCurrent =
          ((node.mapPhase Phase.filled).clearCurrent).shift offset := by
        intro node
        rw [Node.mapPhase_shift, Node.clearCurrent_shift]
      rw [List.foldl_cons, List.foldl_cons, Script.modify_shift offset script id hfill, ih]

private theorem ascend_shift (conditional : Nat) (alternateDone : Bool) :
    (builder.shift offset).ascend conditional alternateDone (line + offset) =
      shiftResult offset (shift offset) (builder.ascend conditional alternateDone line) := by
  simp only [ascend, shift, Script.enclosingConditionals_shift, Script.phase?_shift,
    Script.container?_shift, fill_shift]
  split
  · rfl
  · split
    · exact returnFromAlternate_shift offset { builder with script := _ } line conditional
    · rfl

private theorem complete_shift :
    (builder.shift offset).complete (line + offset) =
      shiftResult offset (shift offset) (builder.complete line) := by
  have hclear (script : Script) (id : Nat) :
      (script.shift offset).modify id Node.clearCurrent =
        (script.modify id Node.clearCurrent).shift offset :=
    script.modify_shift offset id fun _ => rfl
  simp only [complete, shift, Script.parent?_shift, Script.phase?_shift, hclear, mapPhase_shift]
  split
  · rfl
  · split
    · rfl
    · rfl
    · exact ascend_shift offset { builder with script := _ } line _ _
    · exact ascend_shift offset { builder with script := _ } line _ _
    · rfl
    · rfl

private theorem endStatement_shift :
    (builder.shift offset).endStatement (line + offset) =
      shiftResult offset (shift offset) (builder.endStatement line) := by
  rw [endStatement, endStatement, kind_shift]
  split
  · exact complete_shift _ _ _
  · rfl
  · exact shiftResult_bind (requireSlot_shift _ _ _) fun _ =>
      shiftResult_bind (openChild_shift _ _ _ _) fun empty => complete_shift offset empty line
  · rfl

private theorem closeNested_shift (closer : Closer) :
    (builder.shift offset).closeNested closer (line + offset) =
      shiftResult offset (shift offset) (builder.closeNested closer line) := by
  rw [closeNested, closeNested, kind_shift]
  split
  · split
    · exact complete_shift _ _ _
    · rfl
  · split
    · exact complete_shift _ _ _
    · rfl
  all_goals rfl

/-! ## Alternates -/

private theorem endOpenBody_shift :
    (builder.shift offset).endOpenBody (line + offset) =
      shiftResult offset (shift offset) (builder.endOpenBody line) := by
  have hconditional : (builder.script.shift offset).isConditional = builder.script.isConditional :=
    funext (builder.script.isConditional_shift offset)
  have hparent : ((builder.shift offset).script.parent? (builder.shift offset).cursor).any
      (builder.shift offset).script.isConditional =
        (builder.script.parent? builder.cursor).any builder.script.isConditional := by
    simp only [shift, Script.parent?_shift, hconditional]
  rw [endOpenBody, endOpenBody, kind_shift, hparent]
  split
  · exact complete_shift _ _ _
  · rfl

@[simp]
theorem alternateTarget?_shift :
    (builder.shift offset).alternateTarget? = builder.alternateTarget? := by
  have hdeepest : (builder.script.shift offset).deepestUnresolved =
      builder.script.deepestUnresolved :=
    funext (builder.script.deepestUnresolved_shift offset)
  rw [alternateTarget?, alternateTarget?, kind_shift]
  simp only [shift, Script.children_shift, hdeepest]

private theorem openAlternate_shift :
    (builder.shift offset).openAlternate (line + offset) =
      shiftResult offset (shift offset) (builder.openAlternate line) := by
  apply shiftResult_bind (endOpenBody_shift offset builder line)
  intro attached
  rw [alternateTarget?_shift]
  split
  · rfl
  · simp only [shift, mark_shift, mapPhase_shift]
    rfl

/-! ## All steps -/

/-- A step leads to the same builder further down, or is refused with the same error. -/
theorem apply_shift (step : Step) :
    (builder.shift offset).apply step (line + offset) =
      shiftResult offset (shift offset) (builder.apply step line) := by
  cases step with
  | value text => exact addLeaf_shift _ _ _ _
  | operator text => exact addLeaf_shift _ _ _ _
  | openBlock => exact openBlock_shift _ _ _
  | openEnclosure => exact openEnclosure_shift _ _ _
  | openConditional => exact openConditional_shift _ _ _
  | openAlternate => exact openAlternate_shift _ _ _
  | close closer =>
      cases closer with
      | statement => exact endStatement_shift _ _ _
      | bracket => exact closeNested_shift _ _ _ _
      | block => exact closeNested_shift _ _ _ _

theorem finish_shift :
    (builder.shift offset).finish (line + offset) =
      shiftResult offset (Script.shift offset) (builder.finish line) := by
  have hcursor : (builder.shift offset).cursor = builder.cursor := rfl
  rw [finish, finish, kind_shift, hcursor]
  split
  · rfl
  · rfl

end Builder

end SignalScript
