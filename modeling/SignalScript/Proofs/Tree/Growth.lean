import SignalScript.Tree.Script

/-!
# Tables that grow

Building only adds rows to a table and changes what is not fixed when a node is
made: the links, the phase of a conditional and the mark.  So a node keeps its
parent, and with it its ancestors and its depth, and a leaf stays a leaf.
-/

namespace SignalScript

/-- A change of a row that keeps its parent, and whether it is a leaf. -/
structure Node.Steady (change : Node → Node) : Prop where
  parent (node : Node) : (change node).parent = node.parent
  isLeaf (node : Node) : (change node).kind.isLeaf = node.kind.isLeaf

namespace Node

theorem steady_clearCurrent : Steady clearCurrent :=
  ⟨fun _ => rfl, fun _ => rfl⟩

theorem steady_mapPhase (f : Phase → Phase) : Steady (mapPhase f) where
  parent node := by
    rw [mapPhase]
    split <;> rfl
  isLeaf node := by
    cases hkind : node.kind <;> simp [mapPhase, hkind, NodeKind.isLeaf]

theorem steady_setMark (marked : Bool) :
    Steady fun node => { node with alternateReturn := marked } :=
  ⟨fun _ => rfl, fun _ => rfl⟩

theorem Steady.comp {first second : Node → Node} (hfirst : Steady first)
    (hsecond : Steady second) : Steady fun node => second (first node) where
  parent node := (hsecond.parent _).trans (hfirst.parent node)
  isLeaf node := (hsecond.isLeaf _).trans (hfirst.isLeaf node)

end Node

namespace Script

/-- Nothing stands outside of the table. -/
theorem node_outside {script : Script} {id : Nat} (hid : script.nodeCount ≤ id) :
    script.node id = { kind := .script, parent := none, line := script.line } := by
  rw [node, Array.getElem?_eq_none hid, Option.getD_none]

/-- Whether the second table has all nodes of the first, where they were. -/
structure Extends (before after : Script) : Prop where
  nodeCount_le : before.nodeCount ≤ after.nodeCount
  parent : ∀ id < before.nodeCount, after.parent? id = before.parent? id
  isLeaf : ∀ id < before.nodeCount, (after.kind id).isLeaf = (before.kind id).isLeaf

namespace Extends

theorem refl (script : Script) : Extends script script :=
  ⟨Nat.le_refl _, fun _ _ => rfl, fun _ _ => rfl⟩

theorem trans {first second third : Script} (hfirst : Extends first second)
    (hsecond : Extends second third) : Extends first third where
  nodeCount_le := Nat.le_trans hfirst.nodeCount_le hsecond.nodeCount_le
  parent id hid := by
    rw [hsecond.parent id (Nat.lt_of_lt_of_le hid hfirst.nodeCount_le), hfirst.parent id hid]
  isLeaf id hid := by
    rw [hsecond.isLeaf id (Nat.lt_of_lt_of_le hid hfirst.nodeCount_le), hfirst.isLeaf id hid]

/-- A parent stands before its children, so ancestors are never new. -/
theorem ancestors_eq {before after : Script} (hextends : Extends before after) {id : Nat}
    (hid : id < before.nodeCount) : after.ancestors id = before.ancestors id := by
  induction id using Nat.strongRecOn with
  | ind id ih =>
      rw [ancestors, ancestors, hextends.parent id hid]
      cases before.parent? id with
      | none => rfl
      | some parent =>
          by_cases hparent : parent < id
          · simp only [hparent, if_true, ih parent hparent (Nat.lt_trans hparent hid)]
          · simp only [hparent, if_false]

theorem depth_eq {before after : Script} (hextends : Extends before after) {id : Nat}
    (hid : id < before.nodeCount) : after.depth id = before.depth id := by
  rw [depth, depth, hextends.ancestors_eq hid]

end Extends

/-- The name is no part of the table. -/
theorem extends_of_nodes_eq {before after : Script} (hnodes : after.nodes = before.nodes) :
    Extends before after where
  nodeCount_le := by
    simp [nodeCount, hnodes]
  parent id _ := by
    rw [parent?, parent?, node, node, hnodes]
    cases before.nodes[id]? <;> rfl
  isLeaf id _ := by
    rw [kind, kind, node, node, hnodes]
    cases before.nodes[id]? <;> rfl

theorem extends_modify (script : Script) (id : Nat) {change : Node → Node}
    (hsteady : Node.Steady change) : Extends script (script.modify id change) where
  nodeCount_le := Nat.le_of_eq (nodeCount_modify script id change).symm
  parent other hother := by
    rw [parent?, node_modify script id other change hother]
    split
    · exact hsteady.parent _
    · rfl
  isLeaf other hother := by
    rw [kind, node_modify script id other change hother]
    split
    · exact hsteady.isLeaf _
    · rfl

theorem extends_foldl_modify (script : Script) (ids : List Nat) {change : Node → Node}
    (hsteady : Node.Steady change) :
    Extends script (ids.foldl (fun script id => script.modify id change) script) := by
  induction ids generalizing script with
  | nil => exact .refl script
  | cons id ids ih => exact (script.extends_modify id hsteady).trans (ih _)

@[simp]
theorem nodeCount_foldl_modify (script : Script) (ids : List Nat) (change : Node → Node) :
    (ids.foldl (fun script id => script.modify id change) script).nodeCount =
      script.nodeCount := by
  induction ids generalizing script with
  | nil => rfl
  | cons id ids ih => rw [List.foldl_cons, ih, nodeCount_modify]

/-! ## New nodes -/

section Push

variable (script : Script) (parent : Nat) (nodeKind : NodeKind) (line : Nat)

/-- A new row changes the links of its parent only. -/
theorem node_push_of_lt {id : Nat} (hid : id < script.nodeCount) :
    (script.push parent nodeKind line).node id =
      if id = parent then (script.node id).addChild script.nextId nodeKind.isLeaf
      else script.node id := by
  let added : Script :=
    { script with nodes := script.nodes.push { kind := nodeKind, parent := some parent, line } }
  have hadded : added.node id = script.node id := by
    have hne : id ≠ script.nodes.size := Nat.ne_of_lt hid
    simp only [node, added, Array.getElem?_push, if_neg hne]
  have hcount : id < added.nodeCount := by
    simp only [nodeCount, added, Array.size_push]
    exact Nat.lt_succ_of_lt hid
  have hmodify := node_modify added parent id (·.addChild script.nextId nodeKind.isLeaf) hcount
  rw [hadded] at hmodify
  exact hmodify

theorem node_push_nextId (hparent : parent < script.nodeCount) :
    (script.push parent nodeKind line).node script.nextId =
      { kind := nodeKind, parent := some parent, line } := by
  let added : Script :=
    { script with nodes := script.nodes.push { kind := nodeKind, parent := some parent, line } }
  have hadded : added.node script.nextId = { kind := nodeKind, parent := some parent, line } := by
    simp [node, added, nextId]
  have hcount : script.nextId < added.nodeCount := by
    simp [nodeCount, added, nextId]
  have hmodify := node_modify added parent script.nextId
    (·.addChild script.nextId nodeKind.isLeaf) hcount
  have hne : script.nextId ≠ parent := Nat.ne_of_gt hparent
  rw [if_neg hne, hadded] at hmodify
  exact hmodify

theorem extends_push : Extends script (script.push parent nodeKind line) where
  nodeCount_le := by
    rw [nodeCount_push]
    exact Nat.le_succ _
  parent id hid := by
    rw [parent?, node_push_of_lt _ _ _ _ hid]
    split <;> rfl
  isLeaf id hid := by
    rw [kind, node_push_of_lt _ _ _ _ hid]
    split <;> rfl

variable {script parent}

theorem kind_push_nextId (hparent : parent < script.nodeCount) :
    (script.push parent nodeKind line).kind script.nextId = nodeKind := by
  rw [kind, node_push_nextId _ _ _ _ hparent]

/-- A new node stands one level below its parent. -/
theorem depth_push_nextId (hparent : parent < script.nodeCount) :
    (script.push parent nodeKind line).depth script.nextId = script.depth parent + 1 := by
  have hup : (script.push parent nodeKind line).parent? script.nextId = some parent := by
    rw [parent?, node_push_nextId _ _ _ _ hparent]
  have hbefore : parent < script.nextId := hparent
  have hancestors := (script.extends_push parent nodeKind line).ancestors_eq hparent
  rw [depth, ancestors, hup]
  simp only [hbefore, if_true, List.length_cons, hancestors, depth]

end Push

/-! ## Depths of new nodes -/

/-- Whether the second table has a new node that is deeper than a limit and no leaf. -/
def OpensBeyond (limit : Nat) (before after : Script) : Prop :=
  ∃ id < after.nodeCount,
    before.nodeCount ≤ id ∧ (after.kind id).isLeaf = false ∧ limit < after.depth id

instance (limit : Nat) (before after : Script) : Decidable (OpensBeyond limit before after) :=
  inferInstanceAs (Decidable (∃ id < after.nodeCount,
    before.nodeCount ≤ id ∧ (after.kind id).isLeaf = false ∧ limit < after.depth id))

/-- Whether no node is deeper than a limit, leaves aside. -/
def Within (limit : Nat) (script : Script) : Prop :=
  ∀ id < script.nodeCount, (script.kind id).isLeaf = false → script.depth id ≤ limit

variable {limit : Nat} {before middle after : Script}

theorem not_opensBeyond_of_le (hcount : after.nodeCount ≤ before.nodeCount) :
    ¬ OpensBeyond limit before after := by
  rintro ⟨id, hid, hnew, _⟩
  omega

/-- What has been opened on the way is what has been opened in two parts of it. -/
theorem opensBeyond_iff_or (hfirst : Extends before middle) (hsecond : Extends middle after) :
    OpensBeyond limit before after ↔
      OpensBeyond limit before middle ∨ OpensBeyond limit middle after := by
  constructor
  · rintro ⟨id, hid, hnew, hleaf, hdeep⟩
    by_cases hmiddle : id < middle.nodeCount
    · rw [hsecond.isLeaf id hmiddle] at hleaf
      rw [hsecond.depth_eq hmiddle] at hdeep
      exact .inl ⟨id, hmiddle, hnew, hleaf, hdeep⟩
    · exact .inr ⟨id, hid, Nat.le_of_not_lt hmiddle, hleaf, hdeep⟩
  · rintro (⟨id, hid, hnew, hleaf, hdeep⟩ | ⟨id, hid, hnew, hleaf, hdeep⟩)
    · rw [← hsecond.isLeaf id hid] at hleaf
      rw [← hsecond.depth_eq hid] at hdeep
      exact ⟨id, Nat.lt_of_lt_of_le hid hsecond.nodeCount_le, hnew, hleaf, hdeep⟩
    · exact ⟨id, hid, Nat.le_trans hfirst.nodeCount_le hnew, hleaf, hdeep⟩

theorem opensBeyond_push_iff {parent : Nat} (hparent : parent < before.nodeCount)
    (nodeKind : NodeKind) (line : Nat) :
    OpensBeyond limit before (before.push parent nodeKind line) ↔
      nodeKind.isLeaf = false ∧ limit < before.depth parent + 1 := by
  have hkind := kind_push_nextId nodeKind line hparent
  have hdepth := depth_push_nextId nodeKind line hparent
  constructor
  · rintro ⟨id, hid, hnew, hleaf, hdeep⟩
    have hnext : id = before.nextId := by
      rw [nodeCount_push] at hid
      exact Nat.le_antisymm (Nat.le_of_lt_succ hid) hnew
    rw [hnext, hkind] at hleaf
    rw [hnext, hdepth] at hdeep
    exact ⟨hleaf, hdeep⟩
  · rintro ⟨hleaf, hdeep⟩
    refine ⟨before.nextId, ?_, Nat.le_refl _, ?_, ?_⟩
    · rw [nodeCount_push]
      exact Nat.lt_succ_self _
    · rwa [hkind]
    · rwa [hdepth]

/-- A table stays within a limit as long as nothing is opened beyond it. -/
theorem Within.of_extends (hwithin : Within limit before) (hextends : Extends before after)
    (hopens : ¬ OpensBeyond limit before after) : Within limit after := by
  intro id hid hleaf
  by_cases hold : id < before.nodeCount
  · rw [hextends.isLeaf id hold] at hleaf
    rw [hextends.depth_eq hold]
    exact hwithin id hold hleaf
  · apply Nat.le_of_not_lt
    intro hdeep
    exact hopens ⟨id, hid, Nat.le_of_not_lt hold, hleaf, hdeep⟩

end Script

end SignalScript
