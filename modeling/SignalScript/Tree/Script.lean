import SignalScript.Tree.Node

/-!
# Scripts

A script owns the table of all nodes of its tree.  A node is added under one
that is already in the table, so every parent stands before its children; the
root is node 0.
-/

namespace SignalScript

structure Script where
  name : String
  line : Nat
  nodes : Array Node
  deriving DecidableEq, Repr, Inhabited

namespace Script

/-- A script of which only the `SCRIPT` on a line has been read. -/
def opened (line : Nat) : Script :=
  { name := "", line, nodes := #[{ kind := .script, parent := none, line }] }

def root : Nat := 0

def nodeCount (script : Script) : Nat := script.nodes.size

/-- The node with an id; for an id outside the table, a root without
children. -/
def node (script : Script) (id : Nat) : Node :=
  script.nodes[id]?.getD { kind := .script, parent := none, line := script.line }

def kind (script : Script) (id : Nat) : NodeKind := (script.node id).kind

def parent? (script : Script) (id : Nat) : Option Nat := (script.node id).parent

def children (script : Script) (id : Nat) : List Nat := (script.node id).children

/-- The statements, blocks and conditionals that stand in nothing else. -/
def topLevel (script : Script) : List Nat := script.children root

/-- Whether the script holds no node but the root. -/
def isEmpty (script : Script) : Bool := script.topLevel.isEmpty

/-- The state of a conditional. -/
def conditional? (script : Script) (id : Nat) : Option Conditional :=
  (script.kind id).conditional?

/-- The phase of a conditional. -/
def phase? (script : Script) (id : Nat) : Option Phase :=
  (script.conditional? id).map (·.phase)

/-- The text of a leaf. -/
def text? (script : Script) (id : Nat) : Option String :=
  (script.kind id).text?

/-- A child of a conditional, by its position. -/
def slot? (script : Script) (id : Nat) (position : Nat) : Option Nat :=
  if (script.kind id).isConditional then (script.children id)[position]? else none

def condition? (script : Script) (id : Nat) : Option Nat := script.slot? id 0

def body? (script : Script) (id : Nat) : Option Nat := script.slot? id 1

def alternate? (script : Script) (id : Nat) : Option Nat := script.slot? id 2

/-! ## Changes -/

/-- The script with one node changed. -/
def modify (script : Script) (id : Nat) (f : Node → Node) : Script :=
  { script with nodes := script.nodes.modify id f }

/-- The id that the next node gets. -/
def nextId (script : Script) : Nat := script.nodes.size

/-- Adds a node, with the id `nextId`, as the last child of another one. -/
def push (script : Script) (parent : Nat) (kind : NodeKind) (line : Nat) : Script :=
  let added := { script with nodes := script.nodes.push { kind, parent := some parent, line } }
  added.modify parent (·.addChild script.nextId kind.isLeaf)

/-! ## Ways through the tree -/

/-- The parent of a node, its parent, and so on up to the root.  The walk ends
because a parent stands before its children. -/
def ancestors (script : Script) (id : Nat) : List Nat :=
  match script.parent? id with
  | some parent => if parent < id then parent :: script.ancestors parent else []
  | none => []
termination_by id

/-- The number of ancestors. -/
def depth (script : Script) (id : Nat) : Nat :=
  (script.ancestors id).length

/-- Visits the nodes of a stack and those below them, each before its children,
as long as the budget lasts. -/
def visit (script : Script) : Nat → List Nat → List Nat
  | _, [] => []
  | 0, _ => []
  | budget + 1, id :: pending => id :: script.visit budget (script.children id ++ pending)

/-- All nodes below the root, each before its children, in source order.  Every
node is visited once, so their number bounds the walk. -/
def descendants (script : Script) : List Nat :=
  script.visit script.nodeCount script.topLevel

/-- The number of nodes below the root whose kind has a property. -/
def count (script : Script) (property : NodeKind → Bool) : Nat :=
  (script.descendants.filter fun id => property (script.kind id)).length

/-! ## What the changes do -/

@[simp]
theorem nodeCount_modify (script : Script) (id : Nat) (f : Node → Node) :
    (script.modify id f).nodeCount = script.nodeCount := by
  simp [modify, nodeCount]

@[simp]
theorem nodeCount_push (script : Script) (parent : Nat) (kind : NodeKind) (line : Nat) :
    (script.push parent kind line).nodeCount = script.nodeCount + 1 := by
  simp [push, nodeCount, modify]

/-- A change of one node is seen at that node only. -/
theorem node_modify (script : Script) (id other : Nat) (f : Node → Node)
    (bound : other < script.nodeCount) :
    (script.modify id f).node other =
      if other = id then f (script.node other) else script.node other := by
  have found : script.nodes[other]? = some script.nodes[other] :=
    Array.getElem?_eq_getElem bound
  simp only [modify, node, Array.getElem?_modify, found]
  by_cases same : id = other
  · simp [same]
  · simp [same, Ne.symm same]

end Script

end SignalScript
