import SignalScript.Proofs.Tree.Branch

/-!
# Where the nodes of a branch stand

The spots of a branch are its nodes in the order of the table, each with its parent and
its position among the children of that.  A spot gives the row of the table that its id
leads to, the children of a spot are spots again, and every spot but the topmost one is
a child.  So what holds of every spot and its children holds of every row.
-/

namespace SignalScript

namespace Branch

def kind : Branch → NodeKind
  | .node kind _ _ => kind

def line : Branch → Nat
  | .node _ line _ => line

def children : Branch → List Branch
  | .node _ _ children => children

/-- A node of a branch, with the branch below it. -/
structure Spot where
  parentKind : NodeKind
  parent : Nat
  /-- The position among the children of the parent. -/
  position : Nat
  id : Nat
  branch : Branch
  deriving Inhabited, Repr

namespace Spot

def kind (spot : Spot) : NodeKind := spot.branch.kind

/-- The ids of the children. -/
def childIds (spot : Spot) : List Nat := forestIds (spot.id + 1) spot.branch.children

def row (spot : Spot) : Node :=
  { kind := spot.kind, parent := some spot.parent, children := spot.childIds,
    line := spot.branch.line }

end Spot

mutual

/-- The spots of a branch whose topmost node stands at a position below a parent. -/
def spots (parentKind : NodeKind) (parent position id : Nat) : Branch → List Spot
  | .node kind line children =>
    ⟨parentKind, parent, position, id, .node kind line children⟩ ::
      forestSpots kind id 0 (id + 1) children

/-- The spots of branches that follow one another below a parent. -/
def forestSpots (parentKind : NodeKind) (parent position first : Nat) : List Branch → List Spot
  | [] => []
  | branch :: rest =>
    spots parentKind parent position first branch ++
      forestSpots parentKind parent (position + 1) (first + branch.size) rest

end

/-! ## Spots and rows -/

mutual

theorem map_row_spots : (parentKind : NodeKind) → (parent position id : Nat) → (branch : Branch) →
    (spots parentKind parent position id branch).map Spot.row = rows parent id branch
  | _, _, _, id, .node kind _ children => by
      rw [spots, List.map_cons, map_row_forestSpots kind id 0 (id + 1) children, rows]
      rfl

theorem map_row_forestSpots : (parentKind : NodeKind) → (parent position first : Nat) →
    (branches : List Branch) →
      (forestSpots parentKind parent position first branches).map Spot.row =
        forestRows parent first branches
  | _, _, _, _, [] => rfl
  | _, parent, _, first, branch :: rest => by
      rw [forestSpots, List.map_append, map_row_spots _ parent _ first branch,
        map_row_forestSpots _ parent _ _ rest, forestRows]

end

mutual

theorem map_id_spots : (parentKind : NodeKind) → (parent position id : Nat) → (branch : Branch) →
    (spots parentKind parent position id branch).map Spot.id = List.range' id branch.size
  | _, _, _, id, .node kind _ children => by
      rw [spots, List.map_cons, map_id_forestSpots kind id 0 (id + 1) children, size_node,
        List.range'_succ]

theorem map_id_forestSpots : (parentKind : NodeKind) → (parent position first : Nat) →
    (branches : List Branch) →
      (forestSpots parentKind parent position first branches).map Spot.id =
        List.range' first (forestSize branches)
  | _, _, _, _, [] => rfl
  | _, parent, _, first, branch :: rest => by
      rw [forestSpots, List.map_append, map_id_spots _ parent _ first branch,
        map_id_forestSpots _ parent _ _ rest, forestSize_cons, List.range'_append_1]

end

variable {parentKind : NodeKind} {parent position id : Nat} {branch : Branch}

/-- The id of a spot says where it is listed. -/
theorem getElem?_spots {spot : Spot} (hmem : spot ∈ spots parentKind parent position id branch) :
    id ≤ spot.id ∧ spot.id < id + branch.size ∧
      (spots parentKind parent position id branch)[spot.id - id]? = some spot := by
  obtain ⟨index, hindex⟩ := List.getElem?_of_mem hmem
  have hid : (List.range' id branch.size)[index]? = some spot.id := by
    rw [← map_id_spots parentKind parent position id branch, List.getElem?_map, hindex]
    rfl
  obtain ⟨hlt, hget⟩ := List.getElem?_eq_some_iff.mp hid
  rw [List.getElem_range', Nat.one_mul] at hget
  rw [List.length_range'] at hlt
  refine ⟨by omega, by omega, ?_⟩
  rw [← hget, Nat.add_sub_cancel_left]
  exact hindex

/-- Every id of the branch has one spot. -/
theorem exists_spot {other : Nat} (hle : id ≤ other) (hlt : other < id + branch.size) :
    ∃ spot ∈ spots parentKind parent position id branch, spot.id = other := by
  have hmem : other ∈ List.range' id branch.size := List.mem_range'_1.mpr ⟨hle, hlt⟩
  rw [← map_id_spots parentKind parent position id branch] at hmem
  exact List.mem_map.mp hmem

theorem spot_eq_of_id {left right : Spot}
    (hleft : left ∈ spots parentKind parent position id branch)
    (hright : right ∈ spots parentKind parent position id branch) (hid : left.id = right.id) :
    left = right := by
  have hfirst := (getElem?_spots hleft).2.2
  rw [hid, (getElem?_spots hright).2.2] at hfirst
  exact (Option.some.inj hfirst).symm

/-! ## Children -/

theorem getElem?_forestIds (first : Nat) (branches : List Branch) (index : Nat) :
    (forestIds first branches)[index]? =
      branches[index]?.map fun _ => first + forestSize (branches.take index) := by
  induction branches generalizing first index with
  | nil => rfl
  | cons branch rest ih =>
      cases index with
      | zero => rfl
      | succ index =>
          simp only [forestIds, List.getElem?_cons_succ, ih, List.take_succ_cons, forestSize_cons,
            Nat.add_assoc]

/-- The spot of a child. -/
def Spot.child (spot : Spot) (index : Nat) (child : Branch) : Spot :=
  ⟨spot.kind, spot.id, index, spot.id + 1 + forestSize (spot.branch.children.take index), child⟩

theorem Spot.getElem?_childIds (spot : Spot) (index : Nat) :
    spot.childIds[index]? =
      spot.branch.children[index]?.map fun child => (spot.child index child).id :=
  getElem?_forestIds _ _ index

/-- The spots below a spot. -/
def Spot.below (spot : Spot) : List Spot :=
  forestSpots spot.kind spot.id 0 (spot.id + 1) spot.branch.children

private theorem mem_forestSpots (parentKind : NodeKind) (parent position first : Nat)
    {branches : List Branch} {index : Nat} {child : Branch}
    (hchild : branches[index]? = some child) :
    ⟨parentKind, parent, position + index, first + forestSize (branches.take index), child⟩ ∈
      forestSpots parentKind parent position first branches := by
  induction branches generalizing position first index with
  | nil => cases hchild
  | cons branch rest ih =>
      rw [forestSpots]
      cases index with
      | zero =>
          obtain rfl := Option.some.inj hchild
          refine List.mem_append_left _ ?_
          cases branch with
          | node kind line children => exact .head _
      | succ index =>
          have hmem := ih (position + 1) (first + branch.size) hchild
          rw [List.take_succ_cons, forestSize_cons, ← Nat.add_assoc first, Nat.add_comm index,
            ← Nat.add_assoc position]
          exact List.mem_append_right _ hmem

mutual

private theorem below_subset : (parentKind : NodeKind) → (parent position id : Nat) →
    (branch : Branch) → ∀ spot ∈ spots parentKind parent position id branch,
      spot.below ⊆ spots parentKind parent position id branch
  | _, _, _, id, .node kind line children => by
      intro spot hmem
      rw [spots] at hmem ⊢
      rcases List.mem_cons.mp hmem with rfl | hbelow
      · exact List.subset_cons_self _ _
      · exact List.subset_cons_of_subset _
          (below_forest_subset kind id 0 (id + 1) children spot hbelow)

private theorem below_forest_subset : (parentKind : NodeKind) → (parent position first : Nat) →
    (branches : List Branch) →
      ∀ spot ∈ forestSpots parentKind parent position first branches,
        spot.below ⊆ forestSpots parentKind parent position first branches
  | _, _, _, _, [] => by simp [forestSpots]
  | parentKind, parent, position, first, branch :: rest => by
      intro spot hmem
      rw [forestSpots] at hmem ⊢
      rcases List.mem_append.mp hmem with hfirst | hrest
      · exact List.subset_append_of_subset_left _
          (below_subset parentKind parent position first branch spot hfirst)
      · exact List.subset_append_of_subset_right _
          (below_forest_subset parentKind parent _ _ rest spot hrest)

end

/-- The children of a spot are spots. -/
theorem child_mem_spots {spot : Spot} (hmem : spot ∈ spots parentKind parent position id branch)
    {index : Nat} {child : Branch} (hchild : spot.branch.children[index]? = some child) :
    spot.child index child ∈ spots parentKind parent position id branch := by
  apply below_subset parentKind parent position id branch spot hmem
  have hbelow := mem_forestSpots spot.kind spot.id 0 (spot.id + 1) hchild
  rwa [Nat.zero_add] at hbelow

mutual

/-- Every spot but the topmost one is a child. -/
theorem eq_or_child : (parentKind : NodeKind) → (parent position id : Nat) → (branch : Branch) →
    ∀ spot ∈ spots parentKind parent position id branch,
      spot = ⟨parentKind, parent, position, id, branch⟩ ∨
        ∃ above ∈ spots parentKind parent position id branch, ∃ index child,
          above.branch.children[index]? = some child ∧ spot = above.child index child
  | parentKind, parent, position, id, .node kind line children => by
      intro spot hmem
      rw [spots] at hmem ⊢
      rcases List.mem_cons.mp hmem with rfl | hbelow
      · exact .inl rfl
      · right
        rcases top_or_child kind id 0 (id + 1) children spot hbelow with
          ⟨index, child, hchild, rfl⟩ | ⟨above, habove, hothers⟩
        · refine ⟨⟨parentKind, parent, position, id, .node kind line children⟩, .head _, index,
            child, hchild, ?_⟩
          rw [Nat.zero_add]
          rfl
        · exact ⟨above, .tail _ habove, hothers⟩

private theorem top_or_child : (parentKind : NodeKind) → (parent position first : Nat) →
    (branches : List Branch) → ∀ spot ∈ forestSpots parentKind parent position first branches,
      (∃ index child, branches[index]? = some child ∧ spot =
          ⟨parentKind, parent, position + index, first + forestSize (branches.take index),
            child⟩) ∨
        ∃ above ∈ forestSpots parentKind parent position first branches, ∃ index child,
          above.branch.children[index]? = some child ∧ spot = above.child index child
  | _, _, _, _, [] => by simp [forestSpots]
  | parentKind, parent, position, first, branch :: rest => by
      intro spot hmem
      rw [forestSpots] at hmem ⊢
      rcases List.mem_append.mp hmem with hfirst | hrest
      · rcases eq_or_child parentKind parent position first branch spot hfirst with
          rfl | ⟨above, habove, hothers⟩
        · exact .inl ⟨0, branch, rfl, rfl⟩
        · exact .inr ⟨above, List.mem_append_left _ habove, hothers⟩
      · rcases top_or_child parentKind parent _ _ rest spot hrest with
          ⟨index, child, hchild, rfl⟩ | ⟨above, habove, hothers⟩
        · refine .inl ⟨index + 1, child, hchild, ?_⟩
          rw [List.take_succ_cons, forestSize_cons, ← Nat.add_assoc first, Nat.add_comm index,
            ← Nat.add_assoc position]
        · exact .inr ⟨above, List.mem_append_right _ habove, hothers⟩

end

end Branch

end SignalScript
