import SignalScript.Builder
import SignalScript.Proofs.Tree.Stack

/-!
# What a builder does to its stack

A builder whose table is that of a stack, with the cursor at the innermost node,
and the same stack after each of the basic moves: opening a child, adding a leaf,
completing a node that stands in no slot, and completing the body or alternate of
a conditional, which completes a whole chain of conditionals with it.
-/

namespace SignalScript

namespace Frame

/-- The frame without a link to its last child. -/
def unlink (frame : Frame) : Frame := { frame with linked := false }

/-- The frame with a mark or without one. -/
def setMark (marked : Bool) (frame : Frame) : Frame := { frame with marked }

/-- The frame with the phase changed, if it is a conditional. -/
def mapPhase (f : Phase → Phase) (frame : Frame) : Frame :=
  match frame.kind with
  | .conditional state => { frame with kind := .conditional { state with phase := f state.phase } }
  | _ => frame

/-- The frame after the child it waited for has come. -/
def fill (frame : Frame) : Frame := (frame.mapPhase Phase.filled).unlink

/-- The phase, if it is a conditional. -/
def phase? (frame : Frame) : Option Phase := frame.kind.conditional?.map (·.phase)

theorem actsAs_unlink : Stack.ActsAs Node.clearCurrent unlink where
  closed _ := rfl
  row frame parent id isOpen := by simp [Node.clearCurrent, row, unlink, children]

theorem actsAs_setMark (marked : Bool) :
    Stack.ActsAs (fun node => { node with alternateReturn := marked }) (setMark marked) where
  closed _ := rfl
  row frame parent id isOpen := by simp [row, setMark, children]

theorem actsAs_mapPhase (f : Phase → Phase) : Stack.ActsAs (Node.mapPhase f) (mapPhase f) where
  closed frame := by
    rw [mapPhase]
    split <;> rfl
  row frame parent id isOpen := by
    cases hkind : frame.kind <;> simp [Node.mapPhase, mapPhase, row, hkind, children]

theorem actsAs_fill :
    Stack.ActsAs (fun node => (node.mapPhase Phase.filled).clearCurrent) fill where
  closed frame := by
    rw [fill, actsAs_unlink.closed, (actsAs_mapPhase _).closed]
  row frame parent id isOpen := by
    rw [(actsAs_mapPhase _).row, actsAs_unlink.row, fill]

end Frame

namespace Builder

/-- The builder behind the body or alternate that a conditional has waited for. -/
def fillSlot (builder : Builder) (conditional : Nat) : Builder :=
  { builder with
    script := ((builder.script.modify builder.cursor Node.clearCurrent).modify conditional
      Node.clearCurrent).modify conditional (Node.mapPhase Phase.filled) }

/-- A node that is the body or alternate of a conditional completes it. -/
theorem complete_of_slot {builder : Builder} {conditional : Nat}
    (hparent : builder.script.parent? builder.cursor = some conditional)
    (hphase : builder.script.phase? conditional = some .awaitingBody ∨
      builder.script.phase? conditional = some .awaitingAlternate) (line : Nat) :
    builder.complete line = (builder.fillSlot conditional).ascend conditional
      (builder.script.phase? conditional == some .awaitingAlternate) line := by
  rcases hphase with hphase | hphase
  · simp only [complete, hparent, hphase]
    rfl
  · simp only [complete, hparent, hphase]
    rfl

end Builder

namespace Stack

/-- The builder at the innermost node of a stack. -/
def builder (name : String) (line : Nat) (readingName : Bool) (maxDepth : Option Nat)
    (stack : Stack) : Builder :=
  { script := script name line stack, cursor := size stack.tail, readingName, maxDepth }

/-- Whether a node may have a depth. -/
def checkDepth (maxDepth : Option Nat) (depth line : Nat) : Except ParseError Unit :=
  match maxDepth with
  | none => .ok ()
  | some limit => if limit < depth then .error (.nestingTooDeep depth line) else .ok ()

variable (name : String) (line : Nat) (readingName : Bool) (maxDepth : Option Nat)

@[simp]
theorem length_ids (stack : Stack) : (ids stack).length = stack.length := by
  induction stack with
  | nil => rfl
  | cons frame outer ih => simp [ids, ih]

@[simp]
theorem kind_builder (top : Frame) (outer : Stack) :
    (builder name line readingName maxDepth (top :: outer)).kind = top.kind :=
  kind_frame name line [] top outer

@[simp]
theorem phase?_builder (top : Frame) (outer : Stack) :
    (builder name line readingName maxDepth (top :: outer)).phase? = top.phase? :=
  phase?_frame name line [] top outer

/-- Opening a child puts a frame on the stack. -/
theorem openChild_builder (top : Frame) (outer : Stack) (kind : NodeKind) (nodeLine : Nat)
    (hkind : kind.isLeaf = false) :
    (builder name line readingName maxDepth (top :: outer)).openChild kind nodeLine =
      (checkDepth maxDepth (outer.length + 1) nodeLine).map fun _ =>
        builder name line readingName maxDepth
          ({ kind, line := nodeLine } :: top.link :: outer) := by
  have hpush := script_push_open name line top outer kind nodeLine hkind
  have hdepth : (script name line ({ kind, line := nodeLine } :: top.link :: outer)).depth
      (size (top :: outer)) = outer.length + 1 := by
    have hancestors := ancestors_frame name line []
      { kind, line := nodeLine } (top.link :: outer)
    have hsize : size (top.link :: outer) = size (top :: outer) := rfl
    rw [List.nil_append, hsize] at hancestors
    rw [Script.depth, hancestors, length_ids, List.length_cons]
  simp only [Builder.openChild, builder, List.tail_cons, hpush, nextId_script, hdepth, checkDepth]
  cases maxDepth with
  | none => rfl
  | some limit =>
      by_cases hlimit : limit < outer.length + 1
      · simp [hlimit, Except.map]
      · simp [hlimit, Except.map, size, Frame.link]

/-- Adding a leaf adds a branch. -/
theorem push_builder (top : Frame) (outer : Stack) (leaf : NodeKind) (nodeLine : Nat)
    (hleaf : leaf.isLeaf = true) (hlinked : top.linked = false) :
    (builder name line readingName maxDepth (top :: outer)).script.push
        (builder name line readingName maxDepth (top :: outer)).cursor leaf nodeLine =
      script name line (top.add (.node leaf nodeLine []) :: outer) :=
  script_push_leaf name line top outer leaf nodeLine hleaf hlinked

/-! ## Completing nodes -/

private theorem unlink_pair (top below : Frame) (outer : Stack) :
    ((script name line (top :: below :: outer)).modify (size (below :: outer))
        Node.clearCurrent).modify (size outer) Node.clearCurrent =
      script name line (top.unlink :: below.unlink :: outer) := by
  have htop := script_modify name line Frame.actsAs_unlink [] top
    (below :: outer)
  have hbelow := script_modify name line Frame.actsAs_unlink [top.unlink]
    below outer
  simp only [List.nil_append, List.cons_append] at htop hbelow
  rw [htop, hbelow]

private theorem parent?_second (top below : Frame) (outer : Stack) :
    (script name line (top :: below :: outer)).parent? (size (below :: outer)) =
      some (size outer) :=
  parent?_frame name line [] top (below :: outer)

private theorem phase?_second (top below : Frame) (outer : Stack) :
    (script name line (top :: below :: outer)).phase? (size outer) = below.phase? :=
  phase?_frame name line [top] below outer

/-- What stands in the slot of a conditional fills it. -/
theorem fillSlot_builder (top first : Frame) (outer : Stack) :
    (builder name line readingName maxDepth (top :: first :: outer)).fillSlot (size outer) =
      { script := script name line (top.unlink :: first.fill :: outer),
        cursor := size (first :: outer), readingName, maxDepth } := by
  have hmodify := script_modify name line (Frame.actsAs_mapPhase Phase.filled) [top.unlink]
    first.unlink outer
  have hfill : first.unlink.mapPhase Phase.filled = first.fill := by
    cases hkind : first.kind <;> simp [Frame.fill, Frame.mapPhase, Frame.unlink, hkind]
  rw [hfill] at hmodify
  simp only [List.cons_append, List.nil_append] at hmodify
  simp only [Builder.fillSlot, builder, List.tail_cons, unlink_pair, hmodify]

/-- A complete node that stands in no slot is a branch of the node around it. -/
theorem complete_inContainer (top below : Frame) (outer : Stack) (nodeLine : Nat)
    (hphase : below.phase? = none) (hmarked : top.marked = false) :
    (builder name line readingName maxDepth (top :: below :: outer)).complete nodeLine =
      .ok (builder name line readingName maxDepth
        (below.unlink.add top.branch :: outer)) := by
  have hbranch := script_add_branch name line top.unlink below.unlink outer
    rfl hmarked
  simp only [Builder.complete, builder, List.tail_cons, parent?_second, phase?_second, hphase,
    unlink_pair, hbranch]
  rfl

/-- A complete condition leaves its conditional waiting for the body. -/
theorem complete_inCondition (top below : Frame) (outer : Stack) (nodeLine : Nat)
    (hphase : below.phase? = some .awaitingCondition) (hmarked : top.marked = false) :
    (builder name line readingName maxDepth (top :: below :: outer)).complete nodeLine =
      .ok (builder name line readingName maxDepth
        ((below.unlink.mapPhase fun _ => .awaitingBody).add top.branch :: outer)) := by
  have hmodify := script_modify name line
    (Frame.actsAs_mapPhase fun _ => .awaitingBody) [top.unlink] below.unlink outer
  have hlinked : (below.unlink.mapPhase fun _ => .awaitingBody).linked = false := by
    rw [Frame.mapPhase]
    split <;> rfl
  have hbranch := script_add_branch name line top.unlink
    (below.unlink.mapPhase fun _ => .awaitingBody) outer rfl hmarked
  simp only [List.cons_append, List.nil_append] at hmodify
  simp only [Builder.complete, builder, List.tail_cons, parent?_second, phase?_second, hphase,
    unlink_pair, hmodify, hbranch]
  rfl

section Slot

variable (inner chain : Stack) (first container : Frame) (outer : Stack)

/-- The first mark on the way out is that of the container. -/
theorem find?_marked_chain (hunmarked : ∀ frame ∈ chain, frame.marked = false)
    (hmarked : container.marked = true) :
    ((script name line (inner ++ first :: (chain ++ container :: outer))).ancestors
        (size (chain ++ container :: outer))).find? (fun id => ((script name line
          (inner ++ first :: (chain ++ container :: outer))).node id).alternateReturn) =
      some (size outer) := by
  have hnone : (idsOver (container :: outer) chain).find? (fun id => ((script name line
      (inner ++ first :: (chain ++ container :: outer))).node id).alternateReturn) = none := by
    have hmap := map_idsOver name line Node.alternateReturn Frame.marked
      (fun _ _ _ _ => rfl) (inner ++ [first]) chain
      (container :: outer)
    rw [List.find?_eq_none]
    intro id hid
    have hmem := List.mem_map_of_mem (f := fun id => ((script name line
      (inner ++ [first] ++ (chain ++ container :: outer))).node id).alternateReturn) hid
    rw [hmap] at hmem
    obtain ⟨found, hfound, heq⟩ := List.mem_map.mp hmem
    rw [hunmarked found hfound] at heq
    simpa using heq.symm
  have hnode := node_frame name line (inner ++ first :: chain) container outer
  simp only [List.append_assoc, List.cons_append] at hnode
  rw [ancestors_chain, List.find?_append, hnone, Option.none_or, List.find?_cons_of_pos]
  simp [hnode, Frame.row, hmarked]

/-- A builder looks for the mark as far out as the container. -/
private theorem returnFromAlternate_chain (cursor nodeLine : Nat)
    (hunmarked : ∀ frame ∈ chain, frame.marked = false) (hmarked : container.marked = true) :
    ({ script := script name line (inner ++ first :: (chain ++ container :: outer)), cursor,
       readingName, maxDepth } : Builder).returnFromAlternate
        (size (chain ++ container :: outer)) nodeLine =
      .ok { script := script name line
              (inner ++ first :: (chain ++ container.setMark false :: outer)),
            cursor := size outer, readingName, maxDepth } := by
  have hfind := find?_marked_chain name line inner chain first container outer hunmarked hmarked
  have hmodify := script_modify name line (Frame.actsAs_setMark false)
    (inner ++ first :: chain) container outer
  simp only [List.append_assoc, List.cons_append] at hmodify
  simp only [Builder.returnFromAlternate, hfind, hmodify]

/-- Whether one of the conditionals around a frame waits for its alternate. -/
theorem any_awaitingAlternate_chain :
    (idsOver (container :: outer) chain).any (fun id => (script name line
      (inner ++ first :: (chain ++ container :: outer))).phase? id == some .awaitingAlternate) =
      chain.any fun frame => frame.phase? == some .awaitingAlternate := by
  have hmap := map_idsOver name line (fun node => node.kind.conditional?.map (·.phase))
    Frame.phase? (fun _ _ _ _ => rfl) (inner ++ [first]) chain (container :: outer)
  have hanyMap := congrArg (fun phases => phases.any (· == some Phase.awaitingAlternate)) hmap
  simpa [List.any_map, Function.comp_def, Script.phase?, Script.conditional?, Script.kind]
    using hanyMap

/-- Leaving a conditional fills all conditionals around it, and takes the mark of
their container away if there is one. -/
theorem ascend_chain (cursor nodeLine : Nat) (alternateDone : Bool)
    (hchain : ∀ frame ∈ chain, frame.kind.isConditional = true)
    (hcontainer : container.kind.isConditional = false)
    (hunmarked : ∀ frame ∈ chain, frame.marked = false)
    (hmarked : container.marked =
      (alternateDone || chain.any fun frame => frame.phase? == some .awaitingAlternate)) :
    ({ script := script name line (inner ++ first :: (chain ++ container :: outer)), cursor,
       readingName, maxDepth } : Builder).ascend
        (size (chain ++ container :: outer)) alternateDone nodeLine =
      .ok { script := script name line
              (inner ++ first :: (chain.map Frame.fill ++ container.setMark false :: outer)),
            cursor := size outer, readingName, maxDepth } := by
  have hany := any_awaitingAlternate_chain name line inner chain first container outer
  have hmodify := script_modify_all name line Frame.actsAs_fill
    (inner ++ [first]) chain (container :: outer)
  simp only [List.append_assoc, List.cons_append, List.nil_append] at hmodify
  have hsize : size (chain.map Frame.fill ++ container :: outer) =
      size (chain ++ container :: outer) := by
    clear hany hmodify hmarked hunmarked hchain
    induction chain with
    | nil => rfl
    | cons frame rest ih => simp [size, ih, Frame.actsAs_fill.closed]
  simp only [Builder.ascend, enclosingConditionals_chain _ _ hchain hcontainer,
    container?_chain _ _ hchain hcontainer, hany, ← hmarked, hmodify]
  cases hmark : container.marked with
  | false =>
      have hsame : container.setMark false = container := by
        rw [Frame.setMark, ← hmark]
      simp [hsame]
  | true =>
      have hreturn := returnFromAlternate_chain name line readingName maxDepth inner
        (chain.map Frame.fill) first container outer cursor nodeLine (by
          intro frame hframe
          obtain ⟨before, hbefore, rfl⟩ := List.mem_map.mp hframe
          have hkeep : before.fill.marked = before.marked := by
            rw [Frame.fill, Frame.unlink, Frame.mapPhase]
            split <;> rfl
          rw [hkeep, hunmarked before hbefore]) hmark
      rw [hsize] at hreturn
      simpa using hreturn

/-- A complete node in a slot fills it, and all conditionals that end with it get
their slots filled. -/
theorem complete_inSlot (top : Frame) (nodeLine : Nat)
    (hfirst : first.phase? = some .awaitingBody ∨ first.phase? = some .awaitingAlternate)
    (hchain : ∀ frame ∈ chain, frame.kind.isConditional = true)
    (hcontainer : container.kind.isConditional = false)
    (hunmarked : ∀ frame ∈ chain, frame.marked = false)
    (hmarked : container.marked =
      (first :: chain).any fun frame => frame.phase? == some .awaitingAlternate) :
    (builder name line readingName maxDepth
        (top :: first :: (chain ++ container :: outer))).complete nodeLine =
      .ok { script := script name line
              (top.unlink :: ((first :: chain).map Frame.fill ++
                container.setMark false :: outer)),
            cursor := size outer, readingName, maxDepth } := by
  have hascend := ascend_chain name line readingName maxDepth [top.unlink] chain first.fill
    container outer (size (first :: (chain ++ container :: outer))) nodeLine
    (first.phase? == some .awaitingAlternate) hchain hcontainer hunmarked (by
      rw [hmarked, List.any_cons])
  let before := builder name line readingName maxDepth
    (top :: first :: (chain ++ container :: outer))
  have hparent : before.script.parent? before.cursor =
      some (size (chain ++ container :: outer)) := parent?_second name line top first _
  have hphase : before.script.phase? (size (chain ++ container :: outer)) = first.phase? :=
    phase?_second name line top first _
  rw [Builder.complete_of_slot hparent (by rwa [hphase]) nodeLine, hphase]
  simp only [before]
  rw [fillSlot_builder]
  exact hascend

end Slot

end Stack

end SignalScript
