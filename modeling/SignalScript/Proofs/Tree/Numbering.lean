import SignalScript.Proofs.Grammar.Lexemes
import SignalScript.Proofs.Grammar.Phrase
import SignalScript.Tree

/-!
# Tables and trees

The tree of a script whose table lists branches is made of those branches, with the
ids of the table.  The lines of the branches show only in the lines of the table.
-/

namespace SignalScript

namespace Branch

mutual

/-- The tree of a branch whose topmost node has an id. -/
def tree (id : Nat) : Branch → Tree
  | .node kind _ children => .node id kind (forest (id + 1) children)

/-- The trees of branches that follow one another in a table. -/
def forest (first : Nat) : List Branch → List Tree
  | [] => []
  | branch :: rest => tree first branch :: forest (first + branch.size) rest

end

mutual

/-- The trees below every node of a branch, in the order of the table. -/
def subtrees (id : Nat) : Branch → List Tree
  | .node kind line children =>
    tree id (.node kind line children) :: forestSubtrees (id + 1) children

def forestSubtrees (first : Nat) : List Branch → List Tree
  | [] => []
  | branch :: rest => subtrees first branch ++ forestSubtrees (first + branch.size) rest

end

mutual

@[simp]
theorem length_subtrees : (id : Nat) → (branch : Branch) →
    (subtrees id branch).length = branch.size
  | id, .node kind line children => by
      rw [subtrees, List.length_cons, length_forestSubtrees, size_node]

@[simp]
theorem length_forestSubtrees : (first : Nat) → (forest : List Branch) →
    (forestSubtrees first forest).length = forestSize forest
  | _, [] => rfl
  | first, branch :: rest => by
      rw [forestSubtrees, List.length_append, length_subtrees, length_forestSubtrees,
        forestSize_cons]

end

mutual

/-- The ids of the tree of a branch count on in preorder. -/
theorem preorder_tree : (id : Nat) → (branch : Branch) →
    (tree id branch).preorder = List.range' id branch.size
  | id, .node kind line children => by
      rw [tree, Tree.preorder, forestPreorder_forest, size_node, List.range'_succ]

theorem forestPreorder_forest : (first : Nat) → (branches : List Branch) →
    Tree.forestPreorder (forest first branches) = List.range' first (forestSize branches)
  | _, [] => rfl
  | first, branch :: rest => by
      rw [forest, Tree.forestPreorder, preorder_tree, forestPreorder_forest, forestSize_cons,
        List.range'_append_1]

end

/-- The first tree of a branch is that of the whole. -/
theorem head?_subtrees (id : Nat) (branch : Branch) :
    (subtrees id branch)[0]? = some (tree id branch) := by
  cases branch
  rfl

/-- Looking up the topmost nodes of branches among the trees of all their nodes gives
the trees of the branches. -/
theorem filterMap_forestIds (base first : Nat) (branches : List Branch) (before after : List Tree)
    (hfirst : first = base + 1 + before.length) :
    (forestIds first branches).filterMap (fun child =>
        if base < child then
          (before ++ forestSubtrees first branches ++ after)[child - (base + 1)]?
        else none) =
      forest first branches := by
  induction branches generalizing first before with
  | nil => rfl
  | cons branch rest ih =>
      have hplace :
          (before ++ forestSubtrees first (branch :: rest) ++ after)[first - (base + 1)]? =
            some (tree first branch) := by
        have hpos := branch.size_pos
        rw [forestSubtrees, List.append_assoc, List.getElem?_append_right (by omega),
          List.append_assoc, List.getElem?_append_left (by rw [length_subtrees]; omega),
          show first - (base + 1) - before.length = 0 by omega, head?_subtrees]
      have hrest := ih (first + branch.size) (before ++ subtrees first branch)
        (by rw [List.length_append, length_subtrees]; omega)
      rw [forestIds, List.filterMap_cons, if_pos (by omega), hplace, forest, ← hrest]
      simp only [forestSubtrees, List.append_assoc]

mutual

theorem subtrees_rows : (parent id : Nat) → (branch : Branch) → (others : List Node) →
    Script.subtrees id (rows parent id branch ++ others) =
      subtrees id branch ++ Script.subtrees (id + branch.size) others
  | parent, id, .node kind line children, others => by
      have hchildren := filterMap_forestIds id (id + 1) children []
        (Script.subtrees (id + 1 + forestSize children) others) rfl
      rw [List.nil_append] at hchildren
      simp only [rows, List.cons_append, Script.subtrees]
      rw [subtrees_forestRows id (id + 1) children others, hchildren, subtrees, tree, size_node,
        List.cons_append, Nat.add_right_comm id 1]
      rfl

theorem subtrees_forestRows : (parent first : Nat) → (branches : List Branch) →
    (others : List Node) →
      Script.subtrees first (forestRows parent first branches ++ others) =
        forestSubtrees first branches ++ Script.subtrees (first + forestSize branches) others
  | _, _, [], _ => rfl
  | parent, first, branch :: rest, others => by
      rw [forestRows, List.append_assoc, subtrees_rows parent first branch,
        subtrees_forestRows parent _ rest, forestSubtrees, forestSize_cons, List.append_assoc,
        Nat.add_assoc]

end

end Branch

/-- The tree of a script that holds phrases. -/
theorem Script.tree_ofPhrases (name : String) (line : Nat) (phrases : List Phrase) :
    (Script.ofPhrases name line phrases).tree =
      .node root .script (Branch.forest (root + 1) (Phrase.branches phrases)) := by
  have hrows := Branch.subtrees_forestRows root (root + 1) (Phrase.branches phrases) []
  rw [List.append_nil, Script.subtrees, List.append_nil] at hrows
  have hchildren := Branch.filterMap_forestIds root (root + 1) (Phrase.branches phrases) [] [] rfl
  rw [List.nil_append, List.append_nil] at hchildren
  simp only [Script.tree, ofPhrases, Script.subtrees, hrows, hchildren, List.headD_cons]

/-- A node without its line. -/
def Node.unplaced (node : Node) : Node := { node with line := 0 }

/-- What is left of a script without its name and all lines: its table of nodes. -/
def Script.shape (script : Script) : Array Node := script.nodes.map Node.unplaced

namespace Branch

mutual

def unplaced : Branch → Branch
  | .node kind _ children => .node kind 0 (forestUnplaced children)

def forestUnplaced : List Branch → List Branch
  | [] => []
  | branch :: rest => unplaced branch :: forestUnplaced rest

end

mutual

@[simp]
theorem size_unplaced : (branch : Branch) → branch.unplaced.size = branch.size
  | .node kind line children => by
      rw [unplaced, size_node, size_node, forestSize_unplaced]

@[simp]
theorem forestSize_unplaced : (branches : List Branch) →
    forestSize (forestUnplaced branches) = forestSize branches
  | [] => rfl
  | branch :: rest => by
      rw [forestUnplaced, forestSize_cons, forestSize_cons, size_unplaced, forestSize_unplaced]

end

@[simp]
theorem forestIds_unplaced (first : Nat) (branches : List Branch) :
    forestIds first (forestUnplaced branches) = forestIds first branches := by
  induction branches generalizing first with
  | nil => rfl
  | cons branch rest ih => rw [forestUnplaced, forestIds, forestIds, size_unplaced, ih]

mutual

theorem rows_unplaced : (parent id : Nat) → (branch : Branch) →
    rows parent id branch.unplaced = (rows parent id branch).map Node.unplaced
  | parent, id, .node kind line children => by
      rw [unplaced, rows, rows, List.map_cons, forestIds_unplaced, forestRows_unplaced]
      rfl

theorem forestRows_unplaced : (parent first : Nat) → (branches : List Branch) →
    forestRows parent first (forestUnplaced branches) =
      (forestRows parent first branches).map Node.unplaced
  | _, _, [] => rfl
  | parent, first, branch :: rest => by
      rw [forestUnplaced, forestRows, forestRows, List.map_append, rows_unplaced, size_unplaced,
        forestRows_unplaced]

end

end Branch

mutual

theorem Expr.branch_unplaced : (expr : Expr) → expr.unplaced.branch = expr.branch.unplaced
  | .value _ _ => rfl
  | .operator _ _ => rfl
  | .enclosure _ exprs => by
      rw [Expr.unplaced, Expr.branch, Expr.branch, Branch.unplaced, Expr.branches_unplaced exprs]

theorem Expr.branches_unplaced : (exprs : List Expr) →
    Expr.branches (Expr.allUnplaced exprs) = Branch.forestUnplaced (Expr.branches exprs)
  | [] => rfl
  | first :: rest => by
      rw [Expr.allUnplaced, Expr.branches, Expr.branches, Branch.forestUnplaced,
        Expr.branch_unplaced first, Expr.branches_unplaced rest]

end

theorem Condition.branch_unplaced (condition : Condition) :
    condition.unplaced.branch = condition.branch.unplaced := by
  rw [Condition.branch, Condition.branch, Condition.unplaced, Branch.unplaced,
    Expr.branches_unplaced]

mutual

theorem Phrase.branch_unplaced : (isAlternate : Bool) → (phrase : Phrase) →
    phrase.unplaced.branch isAlternate = (phrase.branch isAlternate).unplaced
  | _, .statement _ exprs => by
      rw [Phrase.unplaced, Phrase.branch, Phrase.branch, Branch.unplaced, Expr.branches_unplaced]
  | _, .block _ phrases => by
      rw [Phrase.unplaced, Phrase.branch, Phrase.branch, Branch.unplaced,
        Phrase.branches_unplaced phrases]
  | _, .conditional condition body => by
      simp only [Phrase.unplaced, Phrase.branch, Branch.unplaced, Branch.forestUnplaced,
        Condition.branch_unplaced, Phrase.branch_unplaced _ body]
      rfl
  | _, .alternative condition body alternate => by
      simp only [Phrase.unplaced, Phrase.branch, Branch.unplaced, Branch.forestUnplaced,
        Condition.branch_unplaced, Phrase.branch_unplaced _ body,
        Phrase.branch_unplaced _ alternate]
      rfl

theorem Phrase.branches_unplaced : (phrases : List Phrase) →
    Phrase.branches (Phrase.allUnplaced phrases) = Branch.forestUnplaced (Phrase.branches phrases)
  | [] => rfl
  | first :: rest => by
      rw [Phrase.allUnplaced, Phrase.branches, Phrase.branches, Branch.forestUnplaced,
        Phrase.branch_unplaced false first, Phrase.branches_unplaced rest]

end

@[simp]
theorem Branch.isConditional_unplaced (branch : Branch) :
    branch.unplaced.isConditional = branch.isConditional := by
  cases branch
  rfl

private theorem any_getLast?_unplaced (branches : List Branch) :
    (Branch.forestUnplaced branches).getLast?.any Branch.isConditional =
      branches.getLast?.any Branch.isConditional := by
  induction branches with
  | nil => rfl
  | cons branch rest ih =>
      cases rest with
      | nil => simp [Branch.forestUnplaced]
      | cons next rest => simpa [Branch.forestUnplaced] using ih

/-- A script without its lines is that of the phrases without theirs. -/
theorem Script.shape_ofPhrases (name : String) (line : Nat) (phrases : List Phrase) :
    (ofPhrases name line phrases).shape = (ofPhrases "" 0 (Phrase.allUnplaced phrases)).nodes := by
  simp only [shape, ofPhrases, Phrase.branches_unplaced, Branch.forestIds_unplaced,
    Branch.forestRows_unplaced, any_getLast?_unplaced, List.map_toArray, List.map_cons]
  rfl

end SignalScript
