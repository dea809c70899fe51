import SignalScript.Tree.Conditionals

/-!
# Scripts further down

The lines of a table say where its nodes stand in the source, and nothing about the tree.  A
script that stands further down has the same name, kinds, parents and children, so that every
way through its table is the same, and it grows in the same way.
-/

namespace SignalScript

namespace Node

/-- The node, some lines further down. -/
def shift (offset : Nat) (node : Node) : Node := { node with line := node.line + offset }

variable (offset : Nat) (node : Node)

@[simp]
theorem kind_shift : (node.shift offset).kind = node.kind := rfl

@[simp]
theorem alternateReturn_shift : (node.shift offset).alternateReturn = node.alternateReturn := rfl

theorem clearCurrent_shift : (node.shift offset).clearCurrent = node.clearCurrent.shift offset :=
  rfl

theorem mapPhase_shift (f : Phase → Phase) :
    (node.shift offset).mapPhase f = (node.mapPhase f).shift offset := by
  cases hkind : node.kind <;> simp [mapPhase, shift, hkind]

end Node

namespace Script

/-- The script, some lines further down. -/
def shift (offset : Nat) (script : Script) : Script where
  name := script.name
  line := script.line + offset
  nodes := script.nodes.map (Node.shift offset)

variable (offset : Nat) (script : Script)

@[simp]
theorem nodeCount_shift : (script.shift offset).nodeCount = script.nodeCount :=
  Array.size_map ..

@[simp]
theorem nextId_shift : (script.shift offset).nextId = script.nextId :=
  Array.size_map ..

@[simp]
theorem node_shift (id : Nat) : (script.shift offset).node id = (script.node id).shift offset := by
  rw [node, node, shift, Array.getElem?_map]
  cases script.nodes[id]? <;> rfl

/-! ## Ways through the table -/

@[simp]
theorem kind_shift (id : Nat) : (script.shift offset).kind id = script.kind id := by
  rw [kind, kind, node_shift, Node.kind_shift]

@[simp]
theorem parent?_shift (id : Nat) : (script.shift offset).parent? id = script.parent? id := by
  rw [parent?, parent?, node_shift]
  rfl

@[simp]
theorem children_shift (id : Nat) : (script.shift offset).children id = script.children id := by
  rw [children, children, node_shift]
  rfl

@[simp]
theorem phase?_shift (id : Nat) : (script.shift offset).phase? id = script.phase? id := by
  rw [phase?, phase?, conditional?, conditional?, kind_shift]

@[simp]
theorem isConditional_shift (id : Nat) :
    (script.shift offset).isConditional id = script.isConditional id := by
  rw [isConditional, isConditional, kind_shift]

private theorem slot?_shift (id position : Nat) :
    (script.shift offset).slot? id position = script.slot? id position := by
  rw [slot?, slot?, kind_shift, children_shift]

@[simp]
theorem body?_shift (id : Nat) : (script.shift offset).body? id = script.body? id :=
  slot?_shift offset script id 1

@[simp]
theorem alternate?_shift (id : Nat) :
    (script.shift offset).alternate? id = script.alternate? id :=
  slot?_shift offset script id 2

@[simp]
theorem ancestors_shift (id : Nat) : (script.shift offset).ancestors id = script.ancestors id := by
  fun_induction script.ancestors id with
  | case1 id parent hparent hlt ih =>
    rw [ancestors, parent?_shift, hparent]
    simp only [hlt, if_true, ih]
  | case2 id parent hparent hle =>
    rw [ancestors, parent?_shift, hparent]
    simp only [hle, if_false]
  | case3 id hparent =>
    rw [ancestors, parent?_shift, hparent]

@[simp]
theorem depth_shift (id : Nat) : (script.shift offset).depth id = script.depth id := by
  rw [depth, depth, ancestors_shift]

@[simp]
theorem enclosingConditionals_shift (id : Nat) :
    (script.shift offset).enclosingConditionals id = script.enclosingConditionals id := by
  have hsame : (script.shift offset).isConditional = script.isConditional :=
    funext (script.isConditional_shift offset)
  rw [enclosingConditionals, enclosingConditionals, ancestors_shift, hsame]

@[simp]
theorem container?_shift (id : Nat) :
    (script.shift offset).container? id = script.container? id := by
  simp only [container?, ancestors_shift, isConditional_shift]

@[simp]
theorem deepestUnresolved_shift (id : Nat) :
    (script.shift offset).deepestUnresolved id = script.deepestUnresolved id := by
  fun_induction script.deepestUnresolved id with
  | case1 id hphase body hbody hbounds ih =>
    rw [deepestUnresolved, phase?_shift, hphase]
    simp only [body?_shift, hbody, nodeCount_shift, hbounds, and_self, if_true, ih]
  | case2 id hphase body hbody hbounds =>
    rw [deepestUnresolved, phase?_shift, hphase]
    simp only [body?_shift, hbody, nodeCount_shift, hbounds, if_false]
  | case3 id hphase hbody =>
    rw [deepestUnresolved, phase?_shift, hphase]
    simp only [body?_shift, hbody]
  | case4 id hphase alternate halternate hbounds ih =>
    rw [deepestUnresolved, phase?_shift, hphase]
    simp only [alternate?_shift, halternate, nodeCount_shift, hbounds, and_self, if_true, ih]
  | case5 id hphase alternate halternate hbounds =>
    rw [deepestUnresolved, phase?_shift, hphase]
    simp only [alternate?_shift, halternate, nodeCount_shift, hbounds, if_false]
  | case6 id hphase halternate =>
    rw [deepestUnresolved, phase?_shift, hphase]
    simp only [alternate?_shift, halternate]
  | case7 id hopen hcomplete =>
    rw [deepestUnresolved, phase?_shift]
    split
    · exact absurd ‹_› hopen
    · exact absurd ‹_› hcomplete
    · rfl

/-! ## Changes -/

theorem modify_shift (id : Nat) {change : Node → Node}
    (hchange : ∀ node : Node, change (node.shift offset) = (change node).shift offset) :
    (script.shift offset).modify id change = (script.modify id change).shift offset := by
  simp only [modify, shift, Script.mk.injEq, true_and]
  apply Array.ext_getElem?
  intro other
  simp only [Array.getElem?_modify, Array.getElem?_map]
  split
  · cases script.nodes[other]? with
    | none => rfl
    | some node => exact congrArg some (hchange node)
  · rfl

theorem push_shift (parent : Nat) (kind : NodeKind) (line : Nat) :
    (script.shift offset).push parent kind (line + offset) =
      (script.push parent kind line).shift offset := by
  have hadded : ({ script.shift offset with
      nodes := (script.shift offset).nodes.push
        { kind, parent := some parent, line := line + offset } } : Script) =
      ({ script with
        nodes := script.nodes.push { kind, parent := some parent, line } } : Script).shift
          offset := by
    simp [shift, Node.shift]
  rw [push, push, hadded, nextId_shift]
  exact modify_shift offset _ parent fun _ => rfl

end Script

end SignalScript
