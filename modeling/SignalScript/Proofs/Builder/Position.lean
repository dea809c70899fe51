import SignalScript.Builder
import SignalScript.Proofs.Builder.Frames
import SignalScript.Proofs.Grammar.Phrase

/-!
# Where building stands

A position says how far a script has been read: the phrases that are complete,
and what is open around the cursor.  It has no table and no flags; phases, marks
and links all follow from its shape, and a shape that no script leads to cannot
be written down.  `Position.step` reads one thing at a position the way a parser
with a stack would.
-/

namespace SignalScript

/-- The way into a conditional that is not complete: into its body, or into its
alternate if there is a body. -/
structure Arm where
  condition : Condition
  body? : Option Phrase := none
  deriving Inhabited, Repr

namespace Arm

/-- The conditional with what stands at the end of the way. -/
def plug (arm : Arm) (inside : Phrase) : Phrase :=
  match arm.body? with
  | none => .conditional arm.condition inside
  | some body => .alternative arm.condition body inside

def plugAll (arms : List Arm) (inside : Phrase) : Phrase :=
  arms.foldr plug inside

def isAlternate (arm : Arm) : Bool := arm.body?.isSome

/-- Whether the last of some ways leads into an alternate. -/
def endsInAlternate (start : Bool) (arms : List Arm) : Bool :=
  arms.foldl (fun _ arm => arm.isAlternate) start

/-- The phase of the conditional; `reopened` tells whether an `ELSE` leads back
into it after it was complete. -/
def phase (arm : Arm) (reopened : Bool) : Phase :=
  match arm.body?, reopened with
  | none, false => .awaitingBody
  | none, true => .bodyComplete
  | some _, false => .awaitingAlternate
  | some _, true => .complete

def frame (arm : Arm) (reopened isAlternate : Bool) : Frame where
  kind := .conditional ⟨arm.phase reopened, isAlternate⟩
  line := arm.condition.line
  linked := !reopened
  closed := arm.condition.branch :: (arm.body?.map (Phrase.branch false)).toList

/-- The frames of conditionals that stand in each other, the innermost first. -/
def chain (reopened : Bool) : Bool → List Arm → Stack
  | _, [] => []
  | isAlternate, arm :: inner =>
    chain reopened arm.isAlternate inner ++ [arm.frame reopened isAlternate]

end Arm

/-- The conditional that an `ELSE` was read for, and the way to it. -/
structure Resumed where
  trail : List Arm
  condition : Condition
  body : Phrase
  deriving Inhabited, Repr

/-- The conditional that an `ELSE` after a phrase belongs to: the innermost one
at its end that has none. -/
def Phrase.resume? : Phrase → Option Resumed
  | .statement _ _ | .block _ _ => none
  | .conditional condition body =>
    match body.resume? with
    | some resumed => some { resumed with trail := ⟨condition, none⟩ :: resumed.trail }
    | none => some ⟨[], condition, body⟩
  | .alternative condition body alternate =>
    alternate.resume?.map fun resumed =>
      { resumed with trail := ⟨condition, some body⟩ :: resumed.trail }

/-- What is open between the same braces. -/
structure Level where
  /-- The phrases that are complete. -/
  done : List Phrase := []
  /-- Where an `ELSE` leads back to, while its alternate is open. -/
  resumed? : Option Resumed := none
  /-- The conditionals whose bodies are open, the outermost first. -/
  bodies : List Condition := []
  deriving Inhabited, Repr

namespace Level

/-- The conditionals that are open again on the way to an alternate. -/
def trail (level : Level) : List Arm :=
  match level.resumed? with
  | none => []
  | some resumed => resumed.trail

/-- The conditionals that wait for what is open in them. -/
def slots (level : Level) : List Arm :=
  (match level.resumed? with
    | none => []
    | some resumed => [⟨resumed.condition, some resumed.body⟩]) ++
    level.bodies.map fun condition => ⟨condition, none⟩

/-- Whether the next phrase is the body or alternate of a conditional. -/
def inSlot (level : Level) : Bool := !level.slots.isEmpty

/-- Whether the next phrase is the alternate of a conditional. -/
def inAlternate (level : Level) : Bool := Arm.endsInAlternate false level.slots

/-- The level after its next phrase: with the phrase all open conditionals are
complete. -/
def add (level : Level) (phrase : Phrase) : Level :=
  { done := level.done ++ [Arm.plugAll (level.trail ++ level.slots) phrase] }

/-- The frames of the open conditionals, the innermost first. -/
def chain (level : Level) : Stack :=
  Arm.chain false (Arm.endsInAlternate false level.trail) level.slots ++
    Arm.chain true false level.trail

/-- The frame of the block or script around. -/
def container (level : Level) (kind : NodeKind) (line : Nat) : Frame where
  kind := kind
  line := line
  linked := true
  marked := level.resumed?.isSome
  closed := Phrase.branches level.done

/-- The frames of a level that stands in other open nodes. -/
def onto (level : Level) (kind : NodeKind) (line : Nat) (outer : Stack) : Stack :=
  level.chain ++ level.container kind line :: outer

/-- The level in the alternate that an `ELSE` behind its last phrase opens. -/
def resume (level : Level) (line : Nat) : Except ParseError Level :=
  if level.inSlot then .error (.elseWithoutIf line)
  else
    match level.done.getLast?.bind Phrase.resume? with
    | none => .error (.elseWithoutIf line)
    | some resumed => .ok { done := level.done.dropLast, resumed? := some resumed }

end Level

/-- What the outermost brackets around the cursor belong to. -/
inductive Anchor where
  | statement (line : Nat)
  /-- The condition of a conditional that is not complete. -/
  | condition (line bracketLine : Nat)
  deriving Inhabited, Repr

/-- What is open inside the innermost level. -/
inductive Focus where
  /-- Nothing: a phrase can begin. -/
  | phrase
  /-- A conditional of which only the `IF` has been read. -/
  | head (line : Nat)
  /-- Expressions; `around` holds those before each bracket that is open, with
  its line, the innermost first. -/
  | exprs (anchor : Anchor) (around : List (List Expr × Nat)) (done : List Expr)
  deriving Inhabited, Repr

structure Position where
  level : Level := {}
  /-- The levels around, each with the line of the brace that is open in it, the
  innermost first. -/
  around : List (Level × Nat) := []
  focus : Focus := .phrase
  deriving Inhabited, Repr

/-! ## The stack of a position -/

namespace Frame

/-- The frame as that of the innermost node.  Only a script or block keeps a
link to its last child when that is complete, and only to a conditional. -/
def settle (frame : Frame) : Frame :=
  { frame with
    linked := !frame.kind.isConditional && frame.closed.getLast?.any Branch.isConditional }

end Frame

/-- The stack with its innermost frame settled. -/
def Stack.settle : Stack → Stack
  | [] => []
  | top :: outer => top.settle :: outer

/-- The frames of a level and of the levels around it. -/
def Level.frames (line : Nat) (level : Level) : List (Level × Nat) → Stack
  | [] => level.onto .script line []
  | (outer, blockLine) :: around => level.onto .block blockLine (outer.frames line around)

namespace Anchor

def frame (anchor : Anchor) (done : List Expr) : Frame :=
  match anchor with
  | .statement line => { kind := .statement, line, linked := true, closed := Expr.branches done }
  | .condition _ bracketLine =>
    { kind := .enclosure, line := bracketLine, linked := true, closed := Expr.branches done }

end Anchor

namespace Focus

/-- The frame of a conditional without a condition. -/
def headFrame (inAlternate : Bool) (line : Nat) : Frame :=
  { kind := .conditional (.opened inAlternate), line, linked := true }

/-- The frames of open expressions. -/
def exprFrames (inAlternate : Bool) (base : Stack) (anchor : Anchor) :
    List (List Expr × Nat) → List Expr → Stack
  | [], done =>
    match anchor with
    | .statement _ => anchor.frame done :: base
    | .condition line _ => anchor.frame done :: headFrame inAlternate line :: base
  | (left, line) :: around, done =>
    { kind := .enclosure, line, linked := true, closed := Expr.branches done } ::
      exprFrames inAlternate base anchor around left

def frames (inAlternate : Bool) (base : Stack) : Focus → Stack
  | .phrase => base
  | .head line => headFrame inAlternate line :: base
  | .exprs anchor around done => exprFrames inAlternate base anchor around done

end Focus

namespace Position

/-- The frames of a position, each as if there were an open node above it. -/
def frames (line : Nat) (position : Position) : Stack :=
  position.focus.frames position.level.inAlternate
    (position.level.frames line position.around)

/-- The open nodes of a script that begins on a line. -/
def stack (line : Nat) (position : Position) : Stack :=
  Stack.settle (position.frames line)

/-- The number of open nodes, which is the depth of the next one. -/
def depth (position : Position) : Nat := (position.frames 0).length

/-! ## Reading on -/

/-- The position with something else open, if that is not too deep. -/
def enter (position next : Position) (maxDepth : Option Nat) (line : Nat) :
    Except ParseError Position :=
  (Stack.checkDepth maxDepth position.depth line).map fun _ => next

/-- The position in a statement or in brackets. -/
def enterExpression (position : Position) (maxDepth : Option Nat) (line : Nat) :
    Except ParseError Position :=
  match position.focus with
  | .phrase =>
    position.enter { position with focus := .exprs (.statement line) [] [] } maxDepth line
  | .head _ => .error (.missingCondition line)
  | .exprs _ _ _ => .ok position

/-- The position behind one more expression, if expressions are open. -/
def addExpr (position : Position) (expr : Expr) : Position :=
  match position.focus with
  | .exprs anchor around done =>
    { position with focus := .exprs anchor around (done ++ [expr]) }
  | _ => position

def addLeaf (position : Position) (leaf : Expr) (maxDepth : Option Nat) (line : Nat) :
    Except ParseError Position :=
  (position.enterExpression maxDepth line).map (·.addExpr leaf)

def openBlock (position : Position) (maxDepth : Option Nat) (line : Nat) :
    Except ParseError Position :=
  match position.focus with
  | .phrase =>
    position.enter { level := {}, around := (position.level, line) :: position.around }
      maxDepth line
  | .head _ => .error (.missingCondition line)
  | .exprs _ _ _ => .error (.misplacedBlock .block line)

def openEnclosure (position : Position) (maxDepth : Option Nat) (line : Nat) :
    Except ParseError Position :=
  match position.focus with
  | .head headLine =>
    position.enter { position with focus := .exprs (.condition headLine line) [] [] }
      maxDepth line
  | _ => do
    let inside ← position.enterExpression maxDepth line
    match inside.focus with
    | .exprs anchor around done =>
      inside.enter { inside with focus := .exprs anchor ((done, line) :: around) [] }
        maxDepth line
    | _ => return inside

def openConditional (position : Position) (maxDepth : Option Nat) (line : Nat) :
    Except ParseError Position :=
  match position.focus with
  | .phrase => position.enter { position with focus := .head line } maxDepth line
  | .head _ => .error (.missingCondition line)
  | .exprs _ _ _ => .error (.misplacedBlock .conditional line)

/-- The position behind a phrase of its level. -/
def addPhrase (position : Position) (phrase : Phrase) : Position :=
  { position with level := position.level.add phrase, focus := .phrase }

def endStatement (position : Position) (maxDepth : Option Nat) (line : Nat) :
    Except ParseError Position :=
  match position.focus with
  | .phrase =>
    if position.level.inSlot then
      position.enter (position.addPhrase (.statement line [])) maxDepth line
    else
      .ok position
  | .head _ => .error (.missingCondition line)
  | .exprs (.statement first) [] done => .ok (position.addPhrase (.statement first done))
  | .exprs _ _ _ => .error (.mismatchedClose .bracketClose .statement line)

def closeBracket (position : Position) (line : Nat) : Except ParseError Position :=
  match position.focus with
  | .phrase =>
    if position.level.inSlot then .error (.mismatchedClose .statement .bracket line)
    else if position.around.isEmpty then .error (.unmatchedClose .bracket line)
    else .error (.mismatchedClose .blockClose .bracket line)
  | .head _ => .error (.mismatchedClose .bracketOpen .bracket line)
  | .exprs anchor ((left, bracketLine) :: around) done =>
    .ok { position with focus := .exprs anchor around (left ++ [.enclosure bracketLine done]) }
  | .exprs (.condition headLine bracketLine) [] done =>
    .ok { position with
          level := { position.level with
            bodies := position.level.bodies ++ [⟨headLine, bracketLine, done⟩] }
          focus := .phrase }
  | .exprs (.statement _) [] _ => .error (.mismatchedClose .statementEnd .bracket line)

def closeBlock (position : Position) (line : Nat) : Except ParseError Position :=
  match position.focus with
  | .phrase =>
    if position.level.inSlot then .error (.mismatchedClose .statement .block line)
    else
      match position.around with
      | [] => .error (.unmatchedClose .block line)
      | (outer, blockLine) :: around =>
        .ok { level := outer.add (.block blockLine position.level.done), around }
  | .head _ => .error (.mismatchedClose .bracketOpen .block line)
  | .exprs (.statement _) [] _ => .error (.mismatchedClose .statementEnd .block line)
  | .exprs _ _ _ => .error (.mismatchedClose .bracketClose .block line)

/-- The position in the alternate that an `ELSE` behind a phrase opens. -/
def resume (position : Position) (line : Nat) : Except ParseError Position :=
  (position.level.resume line).map fun level => { position with level, focus := .phrase }

def openAlternate (position : Position) (line : Nat) : Except ParseError Position :=
  match position.focus with
  | .phrase => position.resume line
  | .exprs (.statement first) [] done =>
    if position.level.inSlot then (position.addPhrase (.statement first done)).resume line
    else .error (.elseWithoutIf line)
  | _ => .error (.elseWithoutIf line)

/-- Reads one thing on a line. -/
def step (position : Position) (step : Builder.Step) (maxDepth : Option Nat) (line : Nat) :
    Except ParseError Position :=
  match step with
  | .value text => position.addLeaf (.value line text) maxDepth line
  | .operator text => position.addLeaf (.operator line text) maxDepth line
  | .openBlock => position.openBlock maxDepth line
  | .openEnclosure => position.openEnclosure maxDepth line
  | .openConditional => position.openConditional maxDepth line
  | .openAlternate => position.openAlternate line
  | .close .statement => position.endStatement maxDepth line
  | .close .bracket => position.closeBracket line
  | .close .block => position.closeBlock line

end Position

end SignalScript
