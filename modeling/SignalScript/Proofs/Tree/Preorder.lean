import SignalScript.Proofs.Grammar.Phrase
import SignalScript.Proofs.Tree.WellFormed

/-!
# Walking through a table

The walk with a stack from the topmost nodes of a script downwards visits the nodes in
preorder, on every table that has one.  In a finished script this is the order of the
table, and each node comes once.  So a table and its walk give the same labels: the kinds
and lines of the nodes, in the order of the branches.
-/

namespace SignalScript

namespace Branch

mutual

/-- The kinds and lines of all nodes, each before its children. -/
def labels : Branch → List (NodeKind × Nat)
  | .node kind line children => (kind, line) :: forestLabels children

def forestLabels : List Branch → List (NodeKind × Nat)
  | [] => []
  | first :: rest => labels first ++ forestLabels rest

end

/-- The kind and the line of a row. -/
def rowLabel (row : Node) : NodeKind × Nat := (row.kind, row.line)

mutual

theorem map_rowLabel_rows : (parent id : Nat) → (branch : Branch) →
    (rows parent id branch).map rowLabel = labels branch
  | _, id, .node kind line children => by
      rw [rows, List.map_cons, map_rowLabel_forestRows id (id + 1) children, labels]
      rfl

theorem map_rowLabel_forestRows : (parent first : Nat) → (branches : List Branch) →
    (forestRows parent first branches).map rowLabel = forestLabels branches
  | _, _, [] => rfl
  | parent, first, branch :: rest => by
      rw [forestRows, List.map_append, map_rowLabel_rows parent first branch,
        map_rowLabel_forestRows parent _ rest, forestLabels]

end

/-! ## Walks -/

end Branch

namespace Script

/-- Whether the nodes of a list with all those below them, each before its children and these
before the nodes that follow it, are those of another list. -/
inductive HasPreorder (script : Script) : List Nat → List Nat → Prop
  | nil : HasPreorder script [] []
  | cons {id : Nat} {ids below others : List Nat}
      (hbelow : HasPreorder script (script.children id) below)
      (hothers : HasPreorder script ids others) :
      HasPreorder script (id :: ids) (id :: (below ++ others))

/-- A walk that comes to nodes visits them and all below them, and then what it has still
to visit. -/
theorem HasPreorder.visit_append {script : Script} {ids visited : List Nat}
    (hpreorder : script.HasPreorder ids visited) (budget : Nat) (pending : List Nat) :
    script.visit (visited.length + budget) (ids ++ pending) =
      visited ++ script.visit budget pending := by
  induction hpreorder generalizing budget pending with
  | nil => rw [List.length_nil, Nat.zero_add, List.nil_append, List.nil_append]
  | @cons id ids below others _ _ ihBelow ihOthers =>
      have hbudget : (id :: (below ++ others)).length + budget =
          below.length + (others.length + budget) + 1 := by
        rw [List.length_cons, List.length_append]
        omega
      rw [hbudget, List.cons_append, visit, ihBelow, ihOthers, List.cons_append,
        List.append_assoc]

/-- The walk is the preorder of the topmost nodes, if there are not more nodes below them
than in the table. -/
theorem HasPreorder.descendants_eq {script : Script} {visited : List Nat}
    (hpreorder : script.HasPreorder script.topLevel visited)
    (hlength : visited.length ≤ script.nodeCount) : script.descendants = visited := by
  have hvisit := hpreorder.visit_append (script.nodeCount - visited.length) []
  rw [Nat.add_sub_cancel' hlength, List.append_nil] at hvisit
  rw [descendants, hvisit]
  cases script.nodeCount - visited.length <;> exact List.append_nil _

end Script

namespace Branch

/-- Whether a table has the children that the spots of a list say. -/
def Linked (script : Script) (spots : List Spot) : Prop :=
  ∀ spot ∈ spots, script.children spot.id = spot.childIds

mutual

/-- The nodes of a branch are numbered in preorder. -/
theorem hasPreorder_spots (script : Script) : (parentKind : NodeKind) →
    (parent position id : Nat) → (branch : Branch) →
    (hlinked : Linked script (spots parentKind parent position id branch)) →
      script.HasPreorder (script.children id) (List.range' (id + 1) (branch.size - 1))
  | _, _, _, id, .node kind line children, hlinked => by
      rw [spots] at hlinked
      obtain ⟨htop, hbelow⟩ := List.forall_mem_cons.mp hlinked
      have hchildren : script.children id = forestIds (id + 1) children := htop
      rw [hchildren, size_node, Nat.add_sub_cancel]
      exact hasPreorder_forestSpots script kind id 0 (id + 1) children hbelow

theorem hasPreorder_forestSpots (script : Script) : (parentKind : NodeKind) →
    (parent position first : Nat) → (branches : List Branch) →
    (hlinked : Linked script (forestSpots parentKind parent position first branches)) →
      script.HasPreorder (forestIds first branches) (List.range' first (forestSize branches))
  | _, _, _, _, [], _ => .nil
  | parentKind, parent, position, first, branch :: rest, hlinked => by
      rw [forestSpots] at hlinked
      obtain ⟨hfirst, hrest⟩ := List.forall_mem_append.mp hlinked
      have hbelow := hasPreorder_spots script parentKind parent position first branch hfirst
      have hothers := hasPreorder_forestSpots script parentKind parent (position + 1)
        (first + branch.size) rest hrest
      have hrange : List.range' first (forestSize (branch :: rest)) =
          first :: (List.range' (first + 1) (branch.size - 1) ++
            List.range' (first + branch.size) (forestSize rest)) := by
        rw [forestSize_cons, ← List.range'_append_1, ← List.cons_append, ← List.range'_succ,
          Nat.sub_add_cancel branch.size_pos]
      rw [hrange]
      exact .cons hbelow hothers

end

end Branch

namespace Script

open Branch

/-- The nodes of a table of a branch are numbered in preorder. -/
theorem Lists.hasPreorder {script : Script} {root : Branch} (hlists : script.Lists root) :
    script.HasPreorder script.topLevel (List.range' 1 (script.nodeCount - 1)) := by
  rw [hlists.nodeCount_eq]
  exact hasPreorder_spots script .script Script.root 0 Script.root root fun spot hmem =>
    (hlists.node_eq hmem).2.1

/-- The walk visits all nodes but the root, in the order of the table. -/
theorem Lists.descendants_eq {script : Script} {root : Branch} (hlists : script.Lists root) :
    script.descendants = List.range' 1 (script.nodeCount - 1) := by
  refine hlists.hasPreorder.descendants_eq ?_
  rw [List.length_range']
  exact Nat.sub_le _ _

/-! ## Labels of tables -/

/-- The kind and the line of a node. -/
def label (script : Script) (id : Nat) : NodeKind × Nat :=
  (script.kind id, (script.node id).line)

/-- The leaves among nodes, with their lines. -/
def leavesAmong (script : Script) (ids : List Nat) : List (NodeKind × Nat) :=
  (ids.map script.label).filter fun (kind, _) => kind.isLeaf

theorem map_label_range (script : Script) :
    (List.range script.nodeCount).map script.label = script.nodes.toList.map rowLabel := by
  apply List.ext_getElem
  · simp [nodeCount]
  · intro index hleft hright
    have hindex : index < script.nodes.size := by
      simpa [nodeCount] using hleft
    simp [label, kind, node, rowLabel, Array.getElem?_eq_getElem hindex]

theorem range_nodeCount_ofPhrases (name : String) (line : Nat) (phrases : List Phrase) :
    List.range (ofPhrases name line phrases).nodeCount =
      0 :: (ofPhrases name line phrases).descendants := by
  have hlists := lists_ofPhrases name line phrases
  rw [hlists.descendants_eq, List.range_eq_range', hlists.nodeCount_eq, size_node,
    List.range'_succ, Nat.add_sub_cancel]

/-- The labels that the walk through a script comes along are those of its phrases. -/
theorem map_label_descendants (name : String) (line : Nat) (phrases : List Phrase) :
    (ofPhrases name line phrases).descendants.map (ofPhrases name line phrases).label =
      forestLabels (Phrase.branches phrases) := by
  have hrows := map_rowLabel_forestRows root (root + 1) (Phrase.branches phrases)
  have hall := map_label_range (ofPhrases name line phrases)
  rw [range_nodeCount_ofPhrases, List.map_cons] at hall
  exact (List.cons.inj hall).2.trans hrows

end Script

end SignalScript
