import SignalScript.Proofs.Builder.Consistency
import SignalScript.Proofs.Tree.Growth

/-!
# Builders only add nodes

Every step that a builder takes leads to a table that grows from the one before, and
completing nodes adds none.  Completing fails only where the table has been built
wrongly.
-/

namespace SignalScript

namespace Builder

/-- Whether the second builder has all nodes of the first, and its limit. -/
structure GrowsTo (builder next : Builder) : Prop where
  nodes : builder.script.Extends next.script
  maxDepth : next.maxDepth = builder.maxDepth

theorem GrowsTo.refl (builder : Builder) : builder.GrowsTo builder :=
  ⟨.refl _, rfl⟩

theorem GrowsTo.trans {first second third : Builder} (hfirst : first.GrowsTo second)
    (hsecond : second.GrowsTo third) : first.GrowsTo third :=
  ⟨hfirst.nodes.trans hsecond.nodes, hsecond.maxDepth.trans hfirst.maxDepth⟩

/-- Whether a builder grows if it comes to one at all. -/
def Grows (builder : Builder) (result : Except ParseError Builder) : Prop :=
  ∀ next, result = .ok next → builder.GrowsTo next

theorem grows_ok {builder next : Builder} (hgrows : builder.GrowsTo next) :
    builder.Grows (.ok next) := by
  intro other hother
  rw [← Except.ok.inj hother]
  exact hgrows

theorem grows_error (builder : Builder) (error : ParseError) : builder.Grows (.error error) :=
  nofun

theorem Grows.bind {builder : Builder} {first : Except ParseError Builder}
    {second : Builder → Except ParseError Builder} (hfirst : builder.Grows first)
    (hsecond : ∀ middle : Builder, middle.Grows (second middle)) :
    builder.Grows (first >>= second) := by
  cases first with
  | error error => exact grows_error builder error
  | ok middle =>
      intro next hnext
      exact (hfirst middle rfl).trans (hsecond middle next hnext)

variable (builder : Builder) (line : Nat)

/-! ## Opening nodes -/

theorem grows_openChild (kind : NodeKind) : builder.Grows (builder.openChild kind line) := by
  have hpush := builder.script.extends_push builder.cursor kind line
  rw [openChild]
  split
  next hlimit => exact grows_ok ⟨hpush, hlimit.symm ▸ rfl⟩
  next limit hlimit =>
    dsimp only
    split
    · exact grows_error builder _
    · exact grows_ok ⟨hpush, rfl⟩

private theorem grows_requireSlot {next : Except ParseError Builder}
    (hnext : builder.Grows next) : builder.Grows (builder.requireSlot line >>= fun _ => next) := by
  cases builder.requireSlot line with
  | error error => exact grows_error builder error
  | ok checked => exact hnext

theorem grows_enterExpression : builder.Grows (builder.enterExpression line) := by
  rw [enterExpression]
  split
  · exact grows_ok (.refl _)
  · exact grows_ok (.refl _)
  · exact grows_openChild _ _ _
  · exact grows_openChild _ _ _
  · exact grows_requireSlot _ _ (grows_openChild _ _ _)
  · exact grows_error builder _
  · exact grows_error builder _

theorem grows_push (leaf : NodeKind) : builder.Grows
    (.ok { builder with script := builder.script.push builder.cursor leaf line }) :=
  grows_ok ⟨builder.script.extends_push builder.cursor leaf line, rfl⟩

private theorem grows_addLeaf (leaf : NodeKind) : builder.Grows (builder.addLeaf leaf line) := by
  apply (builder.grows_enterExpression line).bind
  intro target
  exact target.grows_push line leaf

private theorem grows_openBlock : builder.Grows (builder.openBlock line) := by
  rw [openBlock]
  split
  · exact grows_error builder _
  · exact grows_error builder _
  · exact grows_requireSlot _ _ (grows_openChild _ _ _)
  · exact grows_openChild _ _ _

private theorem grows_openEnclosure : builder.Grows (builder.openEnclosure line) := by
  rw [openEnclosure]
  split
  · exact grows_openChild _ _ _
  · apply (builder.grows_enterExpression line).bind
    intro target
    exact target.grows_openChild line .enclosure

private theorem grows_openConditional : builder.Grows (builder.openConditional line) := by
  rw [openConditional]
  split
  · exact grows_error builder _
  · exact grows_error builder _
  · exact grows_requireSlot _ _ (grows_openChild _ _ _)
  · exact grows_openChild _ _ _

/-! ## Completing nodes -/

/-- Whether a builder comes to one with the same nodes, unless it has been built
wrongly. -/
structure Completes (result : Except ParseError Builder) : Prop where
  grows : builder.Grows result
  nodeCount : ∀ next, result = .ok next → next.script.nodeCount = builder.script.nodeCount
  internal : ∀ error, result = .error error → error.isInternal = true

private theorem completes_error {error : ParseError} (hinternal : error.isInternal = true) :
    builder.Completes (.error error) where
  grows := grows_error builder error
  nodeCount := nofun
  internal other hother := by
    rw [← Except.error.inj hother]
    exact hinternal

private theorem completes_ok {next : Builder} (hgrows : builder.GrowsTo next)
    (hcount : next.script.nodeCount = builder.script.nodeCount) :
    builder.Completes (.ok next) where
  grows := grows_ok hgrows
  nodeCount other hother := by
    rw [← Except.ok.inj hother]
    exact hcount
  internal := nofun

private theorem Completes.after {builder changed : Builder}
    {result : Except ParseError Builder} (hcompletes : changed.Completes result)
    (hgrows : builder.GrowsTo changed)
    (hcount : changed.script.nodeCount = builder.script.nodeCount) :
    builder.Completes result where
  grows next hnext := hgrows.trans (hcompletes.grows next hnext)
  nodeCount next hnext := (hcompletes.nodeCount next hnext).trans hcount
  internal := hcompletes.internal

private theorem completes_returnFromAlternate (conditional : Nat) :
    builder.Completes (builder.returnFromAlternate conditional line) := by
  simp only [returnFromAlternate]
  split
  next id _ =>
    have hextends := builder.script.extends_modify id (Node.steady_setMark false)
    exact completes_ok builder ⟨hextends, rfl⟩ (Script.nodeCount_modify _ _ _)
  next => exact completes_error builder rfl

private theorem completes_ascend (conditional : Nat) (alternateDone : Bool) :
    builder.Completes (builder.ascend conditional alternateDone line) := by
  have hfilled := (Node.steady_mapPhase Phase.filled).comp Node.steady_clearCurrent
  have hextends := builder.script.extends_foldl_modify
    (builder.script.enclosingConditionals conditional) hfilled
  have hcount := builder.script.nodeCount_foldl_modify
    (builder.script.enclosingConditionals conditional)
    (fun node => (node.mapPhase Phase.filled).clearCurrent)
  simp only [ascend]
  split
  · exact completes_error builder rfl
  · split
    · exact (completes_returnFromAlternate _ line conditional).after ⟨hextends, rfl⟩ hcount
    · exact completes_ok builder ⟨hextends, rfl⟩ hcount

theorem completes_complete : builder.Completes (builder.complete line) := by
  simp only [complete]
  split
  · exact completes_error builder rfl
  next parent _ =>
    -- The node and its parent are unlinked in any case.
    have hcursor := builder.script.extends_modify builder.cursor Node.steady_clearCurrent
    have hunlinked := hcursor.trans
      (Script.extends_modify _ parent Node.steady_clearCurrent)
    have hphase : ∀ f : Phase → Phase, builder.script.Extends
        (((builder.script.modify builder.cursor Node.clearCurrent).modify parent
          Node.clearCurrent).modify parent (Node.mapPhase f)) := fun f =>
      hunlinked.trans (Script.extends_modify _ parent (Node.steady_mapPhase f))
    split
    · exact completes_ok builder ⟨hunlinked, rfl⟩ (by simp)
    · exact completes_ok builder ⟨hphase _, rfl⟩ (by simp)
    · exact (completes_ascend _ line parent false).after ⟨hphase _, rfl⟩ (by simp)
    · exact (completes_ascend _ line parent true).after ⟨hphase _, rfl⟩ (by simp)
    · exact completes_error builder rfl
    · exact completes_error builder rfl

private theorem grows_endStatement : builder.Grows (builder.endStatement line) := by
  rw [endStatement]
  split
  · exact (builder.completes_complete line).grows
  · exact grows_error builder _
  · apply grows_requireSlot
    apply (builder.grows_openChild line .statement).bind
    intro empty
    exact (empty.completes_complete line).grows
  · exact grows_ok (.refl _)

private theorem grows_closeNested (closer : Closer) :
    builder.Grows (builder.closeNested closer line) := by
  have hcomplete := (builder.completes_complete line).grows
  rw [closeNested]
  split
  · split
    · exact hcomplete
    · exact grows_error builder _
  · split
    · exact hcomplete
    · exact grows_error builder _
  all_goals exact grows_error builder _

private theorem grows_endOpenBody : builder.Grows (builder.endOpenBody line) := by
  rw [endOpenBody]
  split
  · exact (builder.completes_complete line).grows
  · exact grows_ok (.refl _)

private theorem grows_openAlternate : builder.Grows (builder.openAlternate line) := by
  apply (builder.grows_endOpenBody line).bind
  intro attached
  split
  · exact grows_error attached _
  next target _ =>
    have hmark := attached.script.extends_modify attached.cursor (Node.steady_setMark true)
    have hphase := hmark.trans
      (Script.extends_modify _ target (Node.steady_mapPhase fun _ => .awaitingAlternate))
    exact grows_ok ⟨hphase, rfl⟩

private theorem nodeCount_endOpenBody {builder attached : Builder} {line : Nat}
    (hend : builder.endOpenBody line = .ok attached) :
    attached.script.nodeCount = builder.script.nodeCount := by
  rw [endOpenBody] at hend
  split at hend
  · exact (builder.completes_complete line).nodeCount attached hend
  · rw [← Except.ok.inj hend]

/-- An `ELSE` opens no node. -/
theorem nodeCount_openAlternate {builder next : Builder} {line : Nat}
    (hopen : builder.openAlternate line = .ok next) :
    next.script.nodeCount = builder.script.nodeCount := by
  rw [openAlternate] at hopen
  cases hend : builder.endOpenBody line with
  | error error => simp [hend, bind, Except.bind] at hopen
  | ok attached =>
      simp only [hend, bind, Except.bind] at hopen
      split at hopen
      · cases hopen
      · rw [← Except.ok.inj hopen, ← nodeCount_endOpenBody hend]
        simp

/-! ## All steps -/

/-- A step keeps all nodes. -/
theorem grows_apply (step : Step) : builder.Grows (builder.apply step line) := by
  cases step with
  | value text => exact grows_addLeaf _ _ _
  | operator text => exact grows_addLeaf _ _ _
  | openBlock => exact grows_openBlock _ _
  | openEnclosure => exact grows_openEnclosure _ _
  | openConditional => exact grows_openConditional _ _
  | openAlternate => exact grows_openAlternate _ _
  | close closer =>
      cases closer with
      | statement => exact grows_endStatement _ _
      | bracket => exact grows_closeNested _ _ _
      | block => exact grows_closeNested _ _ _

end Builder

end SignalScript
