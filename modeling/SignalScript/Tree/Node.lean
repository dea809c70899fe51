import SignalScript.Operator

/-!
# Nodes of a script's tree

A node is known by its place in the table of its script, a natural number.

A conditional has up to three children: its condition, its body and its
alternate.  Its phase says which of them it has and what it waits for.
-/

namespace SignalScript

inductive Phase where
  | awaitingCondition
  | awaitingBody
  | bodyComplete
  | awaitingAlternate
  | complete
  deriving DecidableEq, Repr, Inhabited

structure Conditional where
  phase : Phase
  /-- Whether this is the `IF` of an `ELSE IF`. -/
  isAlternateCondition : Bool
  deriving DecidableEq, Repr, Inhabited

namespace Conditional

/-- A conditional of which only the `IF` has been read. -/
def opened (isAlternateCondition : Bool) : Conditional :=
  ⟨.awaitingCondition, isAlternateCondition⟩

def hasCondition (conditional : Conditional) : Bool :=
  conditional.phase != .awaitingCondition

def hasBody (conditional : Conditional) : Bool :=
  match conditional.phase with
  | .awaitingCondition | .awaitingBody => false
  | .bodyComplete | .awaitingAlternate | .complete => true

def hasAlternate (conditional : Conditional) : Bool :=
  conditional.phase == .complete

end Conditional

/-- The phase after the child that a conditional waits for has come; the other
phases stay. -/
def Phase.filled : Phase → Phase
  | .awaitingBody => .bodyComplete
  | .awaitingAlternate => .complete
  | phase => phase

inductive NodeKind where
  | script
  | statement
  | block
  /-- What stands between brackets. -/
  | enclosure
  | conditional (state : Conditional)
  | value (text : String)
  | operator (text : String)
  deriving DecidableEq, Repr, Inhabited

namespace NodeKind

def isLeaf : NodeKind → Bool
  | .value _ | .operator _ => true
  | _ => false

def isConditional : NodeKind → Bool
  | .conditional _ => true
  | _ => false

def label : NodeKind → String
  | .script => "script"
  | .statement => "statement"
  | .block => "block"
  | .enclosure => "enclosure"
  | .conditional _ => "conditional"
  | .value _ => "value"
  | .operator _ => "operator"

/-- The state of a conditional. -/
def conditional? : NodeKind → Option Conditional
  | .conditional state => some state
  | _ => none

/-- The text of a leaf. -/
def text? : NodeKind → Option String
  | .value text | .operator text => some text
  | _ => none

end NodeKind

structure Node where
  kind : NodeKind
  parent : Option Nat
  /-- In source order. -/
  children : List Nat := []
  /-- The child that was opened last, until it is complete.  Leaves are never
  opened. -/
  current : Option Nat := none
  line : Nat
  /-- Whether an `ELSE` was read here whose alternate is not complete; building
  goes on here after it. -/
  alternateReturn : Bool := false
  deriving DecidableEq, Repr, Inhabited

namespace Node

/-- The node without an open child. -/
def clearCurrent (node : Node) : Node := { node with current := none }

/-- The node with the phase changed, if it is a conditional. -/
def mapPhase (f : Phase → Phase) (node : Node) : Node :=
  match node.kind with
  | .conditional state => { node with kind := .conditional { state with phase := f state.phase } }
  | _ => node

/-- The node with one more child, which is left open unless it is a leaf. -/
def addChild (node : Node) (id : Nat) (isLeaf : Bool) : Node :=
  { node with
    children := node.children ++ [id]
    current := if isLeaf then node.current else some id }

end Node

end SignalScript
