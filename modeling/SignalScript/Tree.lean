import SignalScript.Tree.Script

/-!
# Trees

The table of a script as a tree.  Functions that follow the shape of a script,
such as writing it out, recurse on this tree.
-/

namespace SignalScript

inductive Tree where
  | node (id : Nat) (kind : NodeKind) (children : List Tree)
  deriving Inhabited, Repr

namespace Tree

def id : Tree → Nat
  | .node id _ _ => id

def kind : Tree → NodeKind
  | .node _ kind _ => kind

def children : Tree → List Tree
  | .node _ _ children => children

mutual

/-- The ids of a tree, each before those of its children. -/
def preorder : Tree → List Nat
  | .node id _ children => id :: forestPreorder children

def forestPreorder : List Tree → List Nat
  | [] => []
  | first :: rest => preorder first ++ forestPreorder rest

end

end Tree

namespace Script

/-- The trees below the nodes that end a table, the first of which has the id
`first`.  Children stand behind their parents, so the trees of the nodes behind
a node are all it needs. -/
def subtrees (first : Nat) : List Node → List Tree
  | [] => []
  | node :: rest =>
    let later := subtrees (first + 1) rest
    let children := node.children.filterMap fun child =>
      if first < child then later[child - (first + 1)]? else none
    .node first node.kind children :: later

/-- The tree of a script. -/
def tree (script : Script) : Tree :=
  (subtrees root script.nodes.toList).headD (.node root .script [])

end Script

end SignalScript
