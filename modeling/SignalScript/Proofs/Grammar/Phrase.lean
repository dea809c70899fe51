import SignalScript.Proofs.Tree.Branch

/-!
# Expressions and phrases

What the text of a script is made of, without any table.  A phrase is a
statement, a block or a conditional; a conditional with an `ELSE` is an
alternative.  Every part knows the line it begins on.
-/

namespace SignalScript

inductive Expr where
  | value (line : Nat) (text : String)
  | operator (line : Nat) (text : String)
  /-- What stands between brackets. -/
  | enclosure (line : Nat) (exprs : List Expr)
  deriving Inhabited, Repr

/-- An `IF` and what stands between the brackets behind it. -/
structure Condition where
  line : Nat
  bracketLine : Nat
  exprs : List Expr
  deriving Inhabited, Repr

inductive Phrase where
  | statement (line : Nat) (exprs : List Expr)
  | block (line : Nat) (phrases : List Phrase)
  /-- A conditional without an `ELSE`. -/
  | conditional (condition : Condition) (body : Phrase)
  | alternative (condition : Condition) (body alternate : Phrase)
  deriving Inhabited, Repr

/-- The line of the first token of an expression. -/
def Expr.line : Expr → Nat
  | .value line _ | .operator line _ | .enclosure line _ => line

mutual

def Expr.branch : Expr → Branch
  | .value line text => .node (.value text) line []
  | .operator line text => .node (.operator text) line []
  | .enclosure line exprs => .node .enclosure line (Expr.branches exprs)

def Expr.branches : List Expr → List Branch
  | [] => []
  | first :: rest => first.branch :: Expr.branches rest

end

def Condition.branch (condition : Condition) : Branch :=
  .node .enclosure condition.bracketLine (Expr.branches condition.exprs)

mutual

/-- The branch of a phrase; `isAlternate` tells whether it is the alternate of a
conditional. -/
def Phrase.branch (isAlternate : Bool) : Phrase → Branch
  | .statement line exprs => .node .statement line (Expr.branches exprs)
  | .block line phrases => .node .block line (Phrase.branches phrases)
  | .conditional condition body =>
    .node (.conditional ⟨.bodyComplete, isAlternate⟩) condition.line
      [condition.branch, body.branch false]
  | .alternative condition body alternate =>
    .node (.conditional ⟨.complete, isAlternate⟩) condition.line
      [condition.branch, body.branch false, alternate.branch true]

def Phrase.branches : List Phrase → List Branch
  | [] => []
  | first :: rest => first.branch false :: Phrase.branches rest

end

/-- The script whose root holds phrases.  The root stays linked to a conditional
that it ends with, and nothing else is linked. -/
def Script.ofPhrases (name : String) (line : Nat) (phrases : List Phrase) : Script where
  name := name
  line := line
  nodes :=
    let branches := Phrase.branches phrases
    let children := Branch.forestIds (Script.root + 1) branches
    ({ kind := .script
       parent := none
       children
       current := if branches.getLast?.any Branch.isConditional then children.getLast? else none
       line } :: Branch.forestRows Script.root (Script.root + 1) branches).toArray

/-- The number of `IF`s of a phrase, outside all braces in it, that have no
`ELSE`. -/
def Phrase.openIfs : Phrase → Nat
  | .statement _ _ | .block _ _ => 0
  | .conditional _ body => body.openIfs + 1
  | .alternative _ body alternate => body.openIfs + alternate.openIfs

@[simp]
theorem Expr.branches_append (left right : List Expr) :
    Expr.branches (left ++ right) = Expr.branches left ++ Expr.branches right := by
  induction left with
  | nil => rfl
  | cons first rest ih => simp [Expr.branches, ih]

@[simp]
theorem Phrase.branches_append (left right : List Phrase) :
    Phrase.branches (left ++ right) = Phrase.branches left ++ Phrase.branches right := by
  induction left with
  | nil => rfl
  | cons first rest ih => simp [Phrase.branches, ih]

end SignalScript
