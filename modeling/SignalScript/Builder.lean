import SignalScript.ParseError
import SignalScript.Tree.Conditionals

/-!
# Building a script

A builder holds the tree of one script as far as it has been read, and a
cursor: the node that what is read next belongs to.  Steps open a child of the
cursor's node and move the cursor into it, add a leaf, or complete the node and
move the cursor up.

A conditional needs no token to end.  When the child it waits for is complete,
so is its body or alternate, and with it those of all conditionals that it is
itself the last part of; the cursor then goes on behind all of them.  An `ELSE`
takes the cursor back into the innermost of the conditionals just passed that
has none yet, and marks the node where building goes on after its alternate.
-/

namespace SignalScript

structure Builder where
  script : Script
  /-- The node that what is read next belongs to. -/
  cursor : Nat := Script.root
  /-- Whether the name of the script may still go on. -/
  readingName : Bool := true
  maxDepth : Option Nat
  deriving DecidableEq, Repr, Inhabited

namespace Builder

/-- What can be read inside a script. -/
inductive Step where
  | value (text : String)
  | operator (text : String)
  | openBlock
  | openEnclosure
  | openConditional
  | openAlternate
  | close (closer : Closer)
  deriving DecidableEq, Repr, Inhabited

/-- A builder for the script that begins on a line. -/
def start (line : Nat) (maxDepth : Option Nat) : Builder :=
  { script := .opened line, maxDepth }

/-- The kind of the node at the cursor. -/
def kind (builder : Builder) : NodeKind :=
  builder.script.kind builder.cursor

/-- The phase of the conditional at the cursor. -/
def phase? (builder : Builder) : Option Phase :=
  builder.script.phase? builder.cursor

/-! ## The name -/

/-- Adds a part to the name. -/
def pushName (builder : Builder) (part : String) : Builder :=
  { builder with script := { builder.script with name := builder.script.name ++ part } }

/-- Ends the name. -/
def endName (builder : Builder) : Builder :=
  { builder with readingName := false }

/-! ## Opening nodes -/

/-- Opens a child of the node at the cursor, and moves the cursor into it. -/
def openChild (builder : Builder) (kind : NodeKind) (line : Nat) : Except ParseError Builder :=
  let id := builder.script.nextId
  let script := builder.script.push builder.cursor kind line
  let opened := { builder with script, cursor := id }
  match builder.maxDepth with
  | none => .ok opened
  | some limit =>
    let depth := script.depth id
    if limit < depth then .error (.nestingTooDeep depth line) else .ok opened

/-- Fails unless the conditional at the cursor waits for its body or
alternate. -/
def requireSlot (builder : Builder) (line : Nat) : Except ParseError Unit :=
  match builder.phase? with
  | some .awaitingBody | some .awaitingAlternate => .ok ()
  | some .awaitingCondition => .error (.missingCondition line)
  | _ => .error (.unexpected "statement" line)

/-- Moves the cursor to a node that takes leaves, which is a new statement
unless the cursor is in one or in an enclosure. -/
def enterExpression (builder : Builder) (line : Nat) : Except ParseError Builder :=
  match builder.kind with
  | .statement | .enclosure => .ok builder
  | .script | .block => builder.openChild .statement line
  | .conditional _ => do
    builder.requireSlot line
    builder.openChild .statement line
  | .value _ | .operator _ => .error (.unexpected "token" line)

/-- Adds a leaf. -/
def addLeaf (builder : Builder) (leaf : NodeKind) (line : Nat) : Except ParseError Builder := do
  let target ← builder.enterExpression line
  return { target with script := target.script.push target.cursor leaf line }

/-- Reads an opening brace. -/
def openBlock (builder : Builder) (line : Nat) : Except ParseError Builder :=
  match builder.kind with
  | .statement | .enclosure => .error (.misplacedBlock .block line)
  | .conditional _ => do
    builder.requireSlot line
    builder.openChild .block line
  | _ => builder.openChild .block line

/-- Reads an opening bracket, which begins a condition or a part of an
expression. -/
def openEnclosure (builder : Builder) (line : Nat) : Except ParseError Builder :=
  if builder.phase? = some .awaitingCondition then
    builder.openChild .enclosure line
  else do
    let target ← builder.enterExpression line
    target.openChild .enclosure line

/-- Reads an `IF`. -/
def openConditional (builder : Builder) (line : Nat) : Except ParseError Builder :=
  match builder.kind with
  | .statement | .enclosure => .error (.misplacedBlock .conditional line)
  | .conditional state => do
    builder.requireSlot line
    builder.openChild (.conditional (.opened (state.phase == .awaitingAlternate))) line
  | _ => builder.openChild (.conditional (.opened false)) line

/-! ## Completing nodes -/

/-- Moves the cursor to the innermost marked node around a conditional whose
alternate is complete, and takes the mark away. -/
def returnFromAlternate (builder : Builder) (conditional : Nat) (line : Nat) :
    Except ParseError Builder :=
  let marked := (builder.script.ancestors conditional).find? fun id =>
    (builder.script.node id).alternateReturn
  match marked with
  | some id =>
    let script := builder.script.modify id fun node => { node with alternateReturn := false }
    .ok { builder with script, cursor := id }
  | none => .error (.missingAlternateReturn line)

/-- Leaves a conditional whose body, or alternate if `alternateDone`, is
complete.  With it the conditionals it is the last part of get theirs. -/
def ascend (builder : Builder) (conditional : Nat) (alternateDone : Bool) (line : Nat) :
    Except ParseError Builder :=
  let around := builder.script.enclosingConditionals conditional
  let anyAlternate := alternateDone ||
    around.any fun id => builder.script.phase? id == some .awaitingAlternate
  let script := around.foldl
    (fun script id => script.modify id fun node => (node.mapPhase Phase.filled).clearCurrent)
    builder.script
  match builder.script.container? conditional with
  | none => .error (.missingAlternateReturn line)
  | some container =>
    if anyAlternate then
      { builder with script }.returnFromAlternate conditional line
    else
      .ok { builder with script, cursor := container }

/-- Completes the node at the cursor. -/
def complete (builder : Builder) (line : Nat) : Except ParseError Builder :=
  match builder.script.parent? builder.cursor with
  | none => .error (.unexpected "end of script" line)
  | some parent =>
    let phase := builder.script.phase? parent
    let script := (builder.script.modify builder.cursor Node.clearCurrent).modify parent
      Node.clearCurrent
    match phase with
    | none => .ok { builder with script, cursor := parent }
    | some .awaitingCondition =>
      let script := script.modify parent (Node.mapPhase fun _ => .awaitingBody)
      .ok { builder with script, cursor := parent }
    | some .awaitingBody =>
      let script := script.modify parent (Node.mapPhase Phase.filled)
      { builder with script }.ascend parent false line
    | some .awaitingAlternate =>
      let script := script.modify parent (Node.mapPhase Phase.filled)
      { builder with script }.ascend parent true line
    | some .bodyComplete | some .complete => .error (.unexpected "statement" line)

/-- Reads a semicolon.  Between statements it means nothing, and as the body or
alternate of a conditional it is an empty statement. -/
def endStatement (builder : Builder) (line : Nat) : Except ParseError Builder :=
  match builder.kind with
  | .statement => builder.complete line
  | .enclosure => .error (.mismatchedClose .bracketClose .statement line)
  | .conditional _ => do
    builder.requireSlot line
    let empty ← builder.openChild .statement line
    empty.complete line
  | _ => .ok builder

/-- Reads a closing bracket or brace. -/
def closeNested (builder : Builder) (closer : Closer) (line : Nat) : Except ParseError Builder :=
  match builder.kind with
  | .enclosure =>
    if closer = .bracket then builder.complete line
    else .error (.mismatchedClose .bracketClose closer line)
  | .block =>
    if closer = .block then builder.complete line
    else .error (.mismatchedClose .blockClose closer line)
  | .script => .error (.unmatchedClose closer line)
  | .statement => .error (.mismatchedClose .statementEnd closer line)
  | .conditional state =>
    let wanted := if state.hasCondition then .statement else .bracketOpen
    .error (.mismatchedClose wanted closer line)
  | .value _ | .operator _ => .error (.unexpected closer.symbol line)

/-- Reads a closing token. -/
def close (builder : Builder) (closer : Closer) (line : Nat) : Except ParseError Builder :=
  match closer with
  | .statement => builder.endStatement line
  | .bracket => builder.closeNested .bracket line
  | .block => builder.closeNested .block line

/-! ## Alternates -/

/-- Ends the statement at the cursor if it is the body or alternate of a
conditional, which an `ELSE` does. -/
def endOpenBody (builder : Builder) (line : Nat) : Except ParseError Builder :=
  if builder.kind = .statement ∧
      (builder.script.parent? builder.cursor).any builder.script.isConditional then
    builder.complete line
  else
    .ok builder

/-- The conditional that an `ELSE` belongs to when the cursor is in a script or
block. -/
def alternateTarget? (builder : Builder) : Option Nat :=
  match builder.kind with
  | .script | .block =>
    (builder.script.children builder.cursor).getLast?.bind builder.script.deepestUnresolved
  | _ => none

/-- Reads an `ELSE`. -/
def openAlternate (builder : Builder) (line : Nat) : Except ParseError Builder := do
  let attached ← builder.endOpenBody line
  match attached.alternateTarget? with
  | none => .error (.elseWithoutIf line)
  | some target =>
    let marked := attached.script.modify attached.cursor fun node =>
      { node with alternateReturn := true }
    let script := marked.modify target (Node.mapPhase fun _ => .awaitingAlternate)
    return { attached with script, cursor := target }

/-! ## All steps -/

/-- Reads one thing on a line. -/
def apply (builder : Builder) (step : Step) (line : Nat) : Except ParseError Builder :=
  match step with
  | .value text => builder.addLeaf (.value text) line
  | .operator text => builder.addLeaf (.operator text) line
  | .openBlock => builder.openBlock line
  | .openEnclosure => builder.openEnclosure line
  | .openConditional => builder.openConditional line
  | .openAlternate => builder.openAlternate line
  | .close closer => builder.close closer line

/-- The script, if nothing in it is open where it ends. -/
def finish (builder : Builder) (line : Nat) : Except ParseError Script :=
  if builder.cursor = Script.root then
    .ok builder.script
  else
    .error (.unclosedScript builder.script.name builder.kind line)

end Builder

end SignalScript
