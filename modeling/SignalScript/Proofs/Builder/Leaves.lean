import SignalScript.Builder
import SignalScript.Proofs.Tree.Preorder

/-!
# The leaves that a step adds

A value or operator that is read becomes the last leaf of the table.  Every other step adds
no leaf and changes none: it opens nodes that can grow, and changes links, phases and marks.
-/

namespace SignalScript

/-- The leaf that a node is, with its line. -/
def Node.leaf? (node : Node) : Option (NodeKind × Nat) :=
  if node.kind.isLeaf then some (node.kind, node.line) else none

namespace Script

/-- The leaves in the order of the table, with their lines. -/
def leaves (script : Script) : List (NodeKind × Nat) :=
  script.leavesAmong (List.range script.nodeCount)

theorem leaves_eq (script : Script) : script.leaves = script.nodes.toList.filterMap Node.leaf? := by
  rw [leaves, leavesAmong, map_label_range]
  induction script.nodes.toList with
  | nil => rfl
  | cons node rest ih =>
      cases hleaf : node.kind.isLeaf <;>
        simp [Branch.rowLabel, Node.leaf?, hleaf, ih]

private theorem filterMap_modify {α β : Type} {change : α → α} {view : α → Option β}
    (hview : ∀ row, view (change row) = view row) (rows : List α) (index : Nat) :
    (rows.modify index change).filterMap view = rows.filterMap view := by
  induction rows generalizing index with
  | nil => simp
  | cons row rest ih =>
      cases index with
      | zero => simp [List.filterMap_cons, hview]
      | succ index => simp [List.filterMap_cons, ih]

/-- A change of a node that is no change of a leaf changes no leaf of the table. -/
theorem leaves_modify (script : Script) (id : Nat) {change : Node → Node}
    (hchange : ∀ node : Node, (change node).leaf? = node.leaf?) :
    (script.modify id change).leaves = script.leaves := by
  rw [leaves_eq, leaves_eq, modify, Array.toList_modify, filterMap_modify hchange]

theorem leaves_push (script : Script) (parent : Nat) (kind : NodeKind) (line : Nat) :
    (script.push parent kind line).leaves =
      script.leaves ++ (if kind.isLeaf then [(kind, line)] else []) := by
  let added : Script :=
    { script with nodes := script.nodes.push { kind, parent := some parent, line } }
  have hadded : added.leaves = script.leaves ++ (if kind.isLeaf then [(kind, line)] else []) := by
    rw [leaves_eq, leaves_eq, Array.toList_push, List.filterMap_append]
    cases hleaf : kind.isLeaf <;> simp [Node.leaf?, hleaf]
  have hlinked : (added.modify parent (·.addChild script.nextId kind.isLeaf)).leaves =
      added.leaves := added.leaves_modify parent fun _ => rfl
  exact hlinked.trans hadded

end Script

namespace Node

theorem leaf?_clearCurrent (node : Node) : node.clearCurrent.leaf? = node.leaf? := rfl

theorem leaf?_mapPhase (f : Phase → Phase) (node : Node) :
    (node.mapPhase f).leaf? = node.leaf? := by
  cases hkind : node.kind <;> simp [mapPhase, leaf?, hkind, NodeKind.isLeaf]

end Node

namespace Builder

/-- Whether a builder comes to one with some more leaves behind the others, if it comes to one
at all. -/
def AddsLeaves (builder : Builder) (added : List (NodeKind × Nat))
    (result : Except ParseError Builder) : Prop :=
  ∀ next, result = .ok next → next.script.leaves = builder.script.leaves ++ added

/-- The leaf that a step adds on a line. -/
def Step.leaf? (line : Nat) : Step → Option (NodeKind × Nat)
  | .value text => some (.value text, line)
  | .operator text => some (.operator text, line)
  | _ => none

theorem Step.line_of_leaf? {step : Step} {line : Nat} {leaf : NodeKind × Nat}
    (hleaf : step.leaf? line = some leaf) : leaf.2 = line := by
  cases step with
  | value | operator => exact (congrArg Prod.snd (Option.some.inj hleaf)).symm
  | openBlock | openEnclosure | openConditional | openAlternate | close => cases hleaf

theorem Step.operator_of_leaf? {step : Step} {line other : Nat} {text : String}
    (hleaf : step.leaf? line = some (.operator text, other)) : step = .operator text := by
  cases step with
  | operator spelling =>
      cases hleaf
      rfl
  | value | openBlock | openEnclosure | openConditional | openAlternate | close => cases hleaf

namespace AddsLeaves

variable {builder : Builder} {added : List (NodeKind × Nat)}

theorem error (error : ParseError) : builder.AddsLeaves added (.error error) :=
  nofun

theorem ok {next : Builder} (hleaves : next.script.leaves = builder.script.leaves) :
    builder.AddsLeaves [] (.ok next) := by
  rintro other ⟨⟩
  rw [hleaves, List.append_nil]

theorem bind {first : Except ParseError Builder} {second : Builder → Except ParseError Builder}
    (hfirst : builder.AddsLeaves [] first)
    (hsecond : ∀ middle : Builder, middle.AddsLeaves added (second middle)) :
    builder.AddsLeaves added (first >>= second) := by
  cases first with
  | error error => exact .error error
  | ok middle =>
      intro next hnext
      rw [hsecond middle next hnext, hfirst middle rfl, List.append_nil]

theorem requireSlot {next : Except ParseError Builder} (hnext : builder.AddsLeaves added next)
    (line : Nat) : builder.AddsLeaves added (builder.requireSlot line >>= fun _ => next) := by
  cases builder.requireSlot line with
  | error error => exact .error error
  | ok checked => exact hnext

/-- The same from a builder with the same leaves. -/
theorem of_same {changed : Builder} {result : Except ParseError Builder}
    (hadds : changed.AddsLeaves added result)
    (hsame : changed.script.leaves = builder.script.leaves) : builder.AddsLeaves added result := by
  intro next hnext
  rw [hadds next hnext, hsame]

end AddsLeaves

variable (builder : Builder) (line : Nat)

/-! ## Opening nodes -/

private theorem addsLeaves_openChild {kind : NodeKind} (hkind : kind.isLeaf = false) :
    builder.AddsLeaves [] (builder.openChild kind line) := by
  have hpush : (builder.script.push builder.cursor kind line).leaves = builder.script.leaves := by
    rw [Script.leaves_push, if_neg (by simp [hkind]), List.append_nil]
  rw [openChild]
  split
  · exact .ok hpush
  · dsimp only
    split
    · exact .error _
    · exact .ok hpush

private theorem addsLeaves_enterExpression :
    builder.AddsLeaves [] (builder.enterExpression line) := by
  rw [enterExpression]
  split
  · exact .ok rfl
  · exact .ok rfl
  · exact addsLeaves_openChild _ _ rfl
  · exact addsLeaves_openChild _ _ rfl
  · exact (addsLeaves_openChild _ _ rfl).requireSlot line
  · exact .error _
  · exact .error _

private theorem addsLeaves_addLeaf {leaf : NodeKind} (hleaf : leaf.isLeaf = true) :
    builder.AddsLeaves [(leaf, line)] (builder.addLeaf leaf line) := by
  apply (builder.addsLeaves_enterExpression line).bind
  rintro target next ⟨⟩
  rw [Script.leaves_push, if_pos hleaf]

private theorem addsLeaves_openBlock : builder.AddsLeaves [] (builder.openBlock line) := by
  rw [openBlock]
  split
  · exact .error _
  · exact .error _
  · exact (addsLeaves_openChild _ _ rfl).requireSlot line
  · exact addsLeaves_openChild _ _ rfl

private theorem addsLeaves_openEnclosure : builder.AddsLeaves [] (builder.openEnclosure line) := by
  rw [openEnclosure]
  split
  · exact addsLeaves_openChild _ _ rfl
  · exact (builder.addsLeaves_enterExpression line).bind fun target =>
      target.addsLeaves_openChild line rfl

private theorem addsLeaves_openConditional :
    builder.AddsLeaves [] (builder.openConditional line) := by
  rw [openConditional]
  split
  · exact .error _
  · exact .error _
  · exact (addsLeaves_openChild _ _ rfl).requireSlot line
  · exact addsLeaves_openChild _ _ rfl

/-! ## Completing nodes -/

private theorem leaves_clearCurrent (script : Script) (id : Nat) :
    (script.modify id Node.clearCurrent).leaves = script.leaves :=
  script.leaves_modify id Node.leaf?_clearCurrent

private theorem leaves_mapPhase (script : Script) (id : Nat) (f : Phase → Phase) :
    (script.modify id (Node.mapPhase f)).leaves = script.leaves :=
  script.leaves_modify id (Node.leaf?_mapPhase f)

private theorem leaves_mark (script : Script) (id : Nat) (marked : Bool) :
    (script.modify id fun node => { node with alternateReturn := marked }).leaves =
      script.leaves :=
  script.leaves_modify id fun _ => rfl

private theorem leaves_fill (script : Script) (ids : List Nat) :
    (ids.foldl (fun script id => script.modify id fun node =>
      (node.mapPhase Phase.filled).clearCurrent) script).leaves = script.leaves := by
  induction ids generalizing script with
  | nil => rfl
  | cons id ids ih =>
      rw [List.foldl_cons, ih]
      exact script.leaves_modify id (Node.leaf?_mapPhase Phase.filled)

private theorem addsLeaves_returnFromAlternate (conditional : Nat) :
    builder.AddsLeaves [] (builder.returnFromAlternate conditional line) := by
  simp only [returnFromAlternate]
  split
  · exact .ok (leaves_mark _ _ _)
  · exact .error _

private theorem addsLeaves_ascend (conditional : Nat) (alternateDone : Bool) :
    builder.AddsLeaves [] (builder.ascend conditional alternateDone line) := by
  simp only [ascend]
  split
  · exact .error _
  · split
    · exact (addsLeaves_returnFromAlternate _ line conditional).of_same (leaves_fill _ _)
    · exact .ok (leaves_fill _ _)

private theorem addsLeaves_complete : builder.AddsLeaves [] (builder.complete line) := by
  simp only [complete]
  split
  · exact .error _
  · split
    · exact .ok (by simp only [leaves_clearCurrent])
    · exact .ok (by simp only [leaves_clearCurrent, leaves_mapPhase])
    · exact (addsLeaves_ascend _ line _ _).of_same
        (by simp only [leaves_clearCurrent, leaves_mapPhase])
    · exact (addsLeaves_ascend _ line _ _).of_same
        (by simp only [leaves_clearCurrent, leaves_mapPhase])
    · exact .error _
    · exact .error _

private theorem addsLeaves_endStatement : builder.AddsLeaves [] (builder.endStatement line) := by
  rw [endStatement]
  split
  · exact addsLeaves_complete _ _
  · exact .error _
  · apply AddsLeaves.requireSlot
    exact (builder.addsLeaves_openChild line rfl).bind fun empty => empty.addsLeaves_complete line
  · exact .ok rfl

private theorem addsLeaves_closeNested (closer : Closer) :
    builder.AddsLeaves [] (builder.closeNested closer line) := by
  rw [closeNested]
  split
  · split
    · exact addsLeaves_complete _ _
    · exact .error _
  · split
    · exact addsLeaves_complete _ _
    · exact .error _
  all_goals exact .error _

private theorem addsLeaves_openAlternate : builder.AddsLeaves [] (builder.openAlternate line) := by
  have hend : builder.AddsLeaves [] (builder.endOpenBody line) := by
    rw [endOpenBody]
    split
    · exact addsLeaves_complete _ _
    · exact .ok rfl
  apply hend.bind
  intro attached
  split
  · exact .error _
  · exact .ok ((leaves_mapPhase _ _ _).trans (leaves_mark _ _ _))

/-! ## All steps -/

/-- A step adds the leaf that is read, behind all others, and nothing else. -/
theorem leaves_apply {step : Step} {next : Builder} (happly : builder.apply step line = .ok next) :
    next.script.leaves = builder.script.leaves ++ (step.leaf? line).toList := by
  have hadds : builder.AddsLeaves (step.leaf? line).toList (builder.apply step line) := by
    cases step with
    | value text => exact addsLeaves_addLeaf _ _ rfl
    | operator text => exact addsLeaves_addLeaf _ _ rfl
    | openBlock => exact addsLeaves_openBlock _ _
    | openEnclosure => exact addsLeaves_openEnclosure _ _
    | openConditional => exact addsLeaves_openConditional _ _
    | openAlternate => exact addsLeaves_openAlternate _ _
    | close closer =>
        cases closer with
        | statement => exact addsLeaves_endStatement _ _
        | bracket => exact addsLeaves_closeNested _ _ _
        | block => exact addsLeaves_closeNested _ _ _
  exact hadds next happly

end Builder

end SignalScript
