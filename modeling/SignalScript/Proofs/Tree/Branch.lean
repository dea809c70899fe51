import SignalScript.Tree.Script

/-!
# Trees without ids

A branch is a node with everything below it, as a tree and not yet as rows of a
table.  Listing its nodes in preorder from an id on gives the rows that a
script's table holds for it, so that a table can be reasoned about by recursion
on the tree it lists.
-/

namespace SignalScript

inductive Branch where
  | node (kind : NodeKind) (line : Nat) (children : List Branch)
  deriving Inhabited, Repr

namespace Branch

def isConditional : Branch → Bool
  | .node kind _ _ => kind.isConditional

mutual

/-- The number of nodes. -/
def size : Branch → Nat
  | .node _ _ children => forestSize children + 1

def forestSize : List Branch → Nat
  | [] => 0
  | first :: rest => size first + forestSize rest

end

/-- The ids of the topmost nodes of branches that follow one another in a
table. -/
def forestIds (first : Nat) : List Branch → List Nat
  | [] => []
  | branch :: rest => first :: forestIds (first + branch.size) rest

mutual

/-- The rows of a branch whose topmost node has an id and a parent. -/
def rows (parent id : Nat) : Branch → List Node
  | .node kind line children =>
    { kind, parent := some parent, children := forestIds (id + 1) children, line } ::
      forestRows id (id + 1) children

/-- The rows of the branches below a node, the first of which has the id
`first`. -/
def forestRows (parent first : Nat) : List Branch → List Node
  | [] => []
  | branch :: rest => rows parent first branch ++ forestRows parent (first + branch.size) rest

end

@[simp]
theorem forestSize_nil : forestSize [] = 0 := rfl

@[simp]
theorem forestSize_cons (branch : Branch) (rest : List Branch) :
    forestSize (branch :: rest) = branch.size + forestSize rest := rfl

@[simp]
theorem size_node (kind : NodeKind) (line : Nat) (children : List Branch) :
    size (.node kind line children) = forestSize children + 1 := rfl

theorem size_pos (branch : Branch) : 0 < branch.size := by
  cases branch
  simp

@[simp]
theorem forestIds_nil (first : Nat) : forestIds first [] = [] := rfl

@[simp]
theorem forestRows_nil (parent first : Nat) : forestRows parent first [] = [] := rfl

theorem length_forestIds (first : Nat) (forest : List Branch) :
    (forestIds first forest).length = forest.length := by
  induction forest generalizing first with
  | nil => rfl
  | cons branch rest ih => simp [forestIds, ih]

/-- The branches behind others get the ids that follow. -/
theorem forestIds_append (first : Nat) (left right : List Branch) :
    forestIds first (left ++ right) =
      forestIds first left ++ forestIds (first + forestSize left) right := by
  induction left generalizing first with
  | nil => simp
  | cons branch rest ih =>
      simp only [List.cons_append, forestIds, ih, forestSize_cons, Nat.add_assoc]

/-- The topmost ids of branches are some of those of all their nodes, in the same order. -/
theorem forestIds_sublist (first : Nat) (forest : List Branch) :
    (forestIds first forest).Sublist (List.range' first (forestSize forest)) := by
  induction forest generalizing first with
  | nil => exact .slnil
  | cons branch rest ih =>
      have hhead : [first].Sublist (List.range' first branch.size) := by
        rw [List.singleton_sublist, List.mem_range'_1]
        exact ⟨Nat.le_refl _, Nat.lt_add_of_pos_right branch.size_pos⟩
      rw [forestIds, forestSize_cons, ← List.range'_append_1]
      exact hhead.append (ih (first + branch.size))

theorem forestRows_append (parent first : Nat) (left right : List Branch) :
    forestRows parent first (left ++ right) =
      forestRows parent first left ++ forestRows parent (first + forestSize left) right := by
  induction left generalizing first with
  | nil => simp
  | cons branch rest ih =>
      simp only [List.cons_append, forestRows, ih, forestSize_cons, Nat.add_assoc,
        List.append_assoc]

mutual

@[simp]
theorem length_rows (parent id : Nat) (branch : Branch) :
    (rows parent id branch).length = branch.size := by
  cases branch with
  | node kind line children =>
      simp only [rows, List.length_cons, size_node]
      rw [length_forestRows id (id + 1) children]

@[simp]
theorem length_forestRows (parent first : Nat) (forest : List Branch) :
    (forestRows parent first forest).length = forestSize forest := by
  cases forest with
  | nil => rfl
  | cons branch rest =>
      simp only [forestRows, List.length_append, forestSize_cons]
      rw [length_rows parent first branch, length_forestRows parent _ rest]

end

end Branch

end SignalScript
