import SignalScript.Tree

/-!
# Writing a script

A script is written with one statement on a line.  Every block indents by one
step what it holds, and so does a conditional whose body or alternate is no
block; an `ELSE IF` stands where its `IF` stood.  Inside a statement everything
is separated by one space.
-/

namespace SignalScript

/-- A line of a script that is written out, without its indentation. -/
structure ScriptLine where
  depth : Nat
  content : String
  deriving DecidableEq, Repr, Inhabited

/-- The line as text, indented by two spaces for each step. -/
def ScriptLine.text (line : ScriptLine) : String :=
  String.ofList (List.replicate (2 * line.depth) ' ') ++ line.content ++ "\n"

namespace Tree

mutual

/-- The text of a node inside a statement. -/
def fragment : Tree → String
  | .node _ (.value text) _ => text
  | .node _ (.operator text) _ => text
  | .node _ .enclosure children => "(" ++ " ".intercalate (fragments children) ++ ")"
  | .node _ _ children => " ".intercalate (fragments children)

def fragments : List Tree → List String
  | [] => []
  | first :: rest => fragment first :: fragments rest

end

/-- The text of what a statement or enclosure holds. -/
def expression (children : List Tree) : String :=
  " ".intercalate (fragments children)

/-- The depth of a body or alternate.  A block lines up with its `IF`. -/
def slotDepth (depth : Nat) (slot : Tree) : Nat :=
  if slot.kind = .block then depth else depth + 1

mutual

/-- The lines of a node. -/
def lines (depth : Nat) : Tree → List ScriptLine
  | .node _ .script children => forestLines depth children
  | .node _ .statement children => [⟨depth, expression children ++ ";"⟩]
  | .node _ .block children =>
    ⟨depth, "\x7b"⟩ :: forestLines (depth + 1) children ++ [⟨depth, "\x7d"⟩]
  | .node _ (.conditional _) children => conditionalLines depth "IF" children
  | .node id kind children => [⟨depth, fragment (.node id kind children)⟩]

/-- The lines of nodes that follow one another. -/
def forestLines (depth : Nat) : List Tree → List ScriptLine
  | [] => []
  | first :: rest => lines depth first ++ forestLines depth rest

/-- The lines of a conditional with given children, after its keyword. -/
def conditionalLines (depth : Nat) (keyword : String) : List Tree → List ScriptLine
  | [] => [⟨depth, keyword⟩]
  | condition :: parts =>
    ⟨depth, keyword ++ " " ++ fragment condition⟩ :: bodyLines depth parts

/-- The lines of the body and alternate of a conditional. -/
def bodyLines (depth : Nat) : List Tree → List ScriptLine
  | [] => []
  | body :: parts => lines (slotDepth depth body) body ++ alternateLines depth parts

/-- The lines of the alternate of a conditional. -/
def alternateLines (depth : Nat) : List Tree → List ScriptLine
  | [] => []
  | .node _ (.conditional ⟨_, true⟩) children :: _ =>
    conditionalLines depth "ELSE IF" children
  | alternate :: _ => ⟨depth, "ELSE"⟩ :: lines (slotDepth depth alternate) alternate

end

end Tree

namespace Script

/-- The first line of a script. -/
def renderHeader (script : Script) : String :=
  "SCRIPT " ++ script.name ++ "\n"

/-- What follows the first line. -/
def renderBody (script : Script) : String :=
  String.join ((script.tree.lines 1).map ScriptLine.text)

/-- The script as text. -/
def render (script : Script) : String :=
  script.renderHeader ++ script.renderBody

end Script

end SignalScript
