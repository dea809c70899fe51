import SignalScript.Proofs.Tree.Slots

/-!
# Where no `ELSE` is open

The rows of complete phrases have no marks, and none of their conditionals waits for an
alternate.  Their children are among them, so no way through bodies and alternates that
begins there leads to a conditional that does.
-/

namespace SignalScript

/-- Whether a row says nothing of an `ELSE` whose alternate is open. -/
structure Node.Quiet (node : Node) : Prop where
  unmarked : node.alternateReturn = false
  phase : node.kind.conditional?.map (·.phase) ≠ some .awaitingAlternate

namespace Branch

/-- Whether no row of a branch says anything of an open `ELSE`. -/
def Quiet (branch : Branch) : Prop :=
  ∀ parent id, ∀ row ∈ rows parent id branch, row.Quiet

def ForestQuiet (branches : List Branch) : Prop :=
  ∀ parent first, ∀ row ∈ forestRows parent first branches, row.Quiet

theorem quiet_node {kind : NodeKind} {line : Nat} {children : List Branch}
    (hphase : kind.conditional?.map (·.phase) ≠ some .awaitingAlternate)
    (hchildren : ForestQuiet children) : Quiet (.node kind line children) :=
  fun _ id => List.forall_mem_cons.mpr ⟨⟨rfl, hphase⟩, hchildren id (id + 1)⟩

theorem forestQuiet_nil : ForestQuiet [] :=
  fun _ _ => List.forall_mem_nil _

theorem forestQuiet_cons {branch : Branch} {rest : List Branch} (hbranch : branch.Quiet)
    (hrest : ForestQuiet rest) : ForestQuiet (branch :: rest) :=
  fun parent first => List.forall_mem_append.mpr ⟨hbranch parent first, hrest parent _⟩

end Branch

open Branch (quiet_node forestQuiet_nil forestQuiet_cons)

mutual

theorem Expr.quiet_branch : (expr : Expr) → expr.branch.Quiet
  | .value _ _ => quiet_node nofun forestQuiet_nil
  | .operator _ _ => quiet_node nofun forestQuiet_nil
  | .enclosure _ exprs => quiet_node nofun (Expr.quiet_branches exprs)

theorem Expr.quiet_branches : (exprs : List Expr) → Branch.ForestQuiet (Expr.branches exprs)
  | [] => forestQuiet_nil
  | expr :: rest => forestQuiet_cons (Expr.quiet_branch expr) (Expr.quiet_branches rest)

end

theorem Condition.quiet_branch (condition : Condition) : condition.branch.Quiet :=
  quiet_node nofun (Expr.quiet_branches condition.exprs)

mutual

theorem Phrase.quiet_branch : (isAlternate : Bool) → (phrase : Phrase) →
    (phrase.branch isAlternate).Quiet
  | _, .statement _ exprs => quiet_node nofun (Expr.quiet_branches exprs)
  | _, .block _ phrases => quiet_node nofun (Phrase.quiet_branches phrases)
  | _, .conditional condition body =>
      quiet_node nofun (forestQuiet_cons condition.quiet_branch
        (forestQuiet_cons (Phrase.quiet_branch false body) forestQuiet_nil))
  | _, .alternative condition body alternate =>
      quiet_node nofun (forestQuiet_cons condition.quiet_branch
        (forestQuiet_cons (Phrase.quiet_branch false body)
          (forestQuiet_cons (Phrase.quiet_branch true alternate) forestQuiet_nil)))

theorem Phrase.quiet_branches : (phrases : List Phrase) →
    Branch.ForestQuiet (Phrase.branches phrases)
  | [] => forestQuiet_nil
  | phrase :: rest =>
      forestQuiet_cons (Phrase.quiet_branch false phrase) (Phrase.quiet_branches rest)

end

/-! ## Children -/

namespace Branch

theorem mem_forestIds {first child : Nat} {branches : List Branch}
    (hchild : child ∈ forestIds first branches) :
    first ≤ child ∧ child < first + forestSize branches :=
  List.mem_range'_1.mp ((forestIds_sublist first branches).subset hchild)

mutual

/-- The children of a node of a branch are in the branch. -/
theorem child_rows : (parent id : Nat) → (branch : Branch) →
    ∀ row ∈ rows parent id branch, ∀ child ∈ row.children,
      id ≤ child ∧ child < id + branch.size
  | parent, id, .node kind line children => by
      rw [size_node]
      refine List.forall_mem_cons.mpr ⟨?_, ?_⟩
      · intro child hchild
        have := mem_forestIds hchild
        omega
      · intro row hrow child hchild
        have := child_forestRows id (id + 1) children row hrow child hchild
        omega

theorem child_forestRows : (parent first : Nat) → (branches : List Branch) →
    ∀ row ∈ forestRows parent first branches, ∀ child ∈ row.children,
      first ≤ child ∧ child < first + forestSize branches
  | _, _, [] => List.forall_mem_nil _
  | parent, first, branch :: rest => by
      rw [forestSize_cons]
      refine List.forall_mem_append.mpr ⟨?_, ?_⟩
      · intro row hrow child hchild
        have := child_rows parent first branch row hrow child hchild
        omega
      · intro row hrow child hchild
        have := child_forestRows parent (first + branch.size) rest row hrow child hchild
        omega

end

end Branch

/-! ## Ways that end nowhere -/

namespace Script

/-- Whether a way leads to a conditional that waits for its alternate. -/
structure LeadsToAwaiting (script : Script) (id target : Nat) : Prop where
  leads : script.Leads id target
  phase : script.phase? target = some .awaitingAlternate

theorem mem_children_of_slot? {script : Script} {id position child : Nat}
    (hslot : script.slot? id position = some child) : child ∈ script.children id := by
  rw [slot?] at hslot
  split at hslot
  · exact List.mem_of_getElem? hslot
  · cases hslot

/-- Whether nothing between two ids says anything of an open `ELSE`, and nothing leads out
from there. -/
structure QuietBetween (script : Script) (first last : Nat) : Prop where
  node (id : Nat) (hle : first ≤ id) (hlt : id < last) : (script.node id).Quiet
  child (id : Nat) (hle : first ≤ id) (hlt : id < last) (child : Nat)
    (hchild : child ∈ script.children id) : first ≤ child ∧ child < last

variable {script : Script} {first last : Nat}

theorem QuietBetween.not_leads (hquiet : script.QuietBetween first last) {id : Nat}
    (hle : first ≤ id) (hlt : id < last) (target : Nat) : ¬ script.LeadsToAwaiting id target := by
  rintro ⟨hleads, hphase⟩
  induction hleads with
  | here id => exact (hquiet.node id hle hlt).phase hphase
  | body hbody hrest ih =>
      obtain ⟨hchild, hlast⟩ := hquiet.child _ hle hlt _ (mem_children_of_slot? hbody)
      exact ih hchild hlast hphase
  | alternate halternate hrest ih =>
      obtain ⟨hchild, hlast⟩ := hquiet.child _ hle hlt _ (mem_children_of_slot? halternate)
      exact ih hchild hlast hphase

/-- The rows of branches that say nothing of an open `ELSE`, in a table. -/
theorem HasForest.quietBetween {parent : Nat} {branches : List Branch}
    (hforest : script.HasForest parent first branches) (hquiet : Branch.ForestQuiet branches) :
    script.QuietBetween first (first + Branch.forestSize branches) := by
  have hrow : ∀ id, first ≤ id → id < first + Branch.forestSize branches →
      script.node id ∈ Branch.forestRows parent first branches := by
    intro id hle hlt
    obtain ⟨tail, htail⟩ := hforest
    have hlength : id - first < (Branch.forestRows parent first branches).length := by
      rw [Branch.length_forestRows]
      omega
    have hget := congrArg (·[id - first]?) htail
    simp only [List.getElem?_append_left hlength, List.getElem?_drop, Array.getElem?_toList,
      Nat.add_sub_cancel' hle] at hget
    rw [Script.node, ← hget, List.getElem?_eq_getElem hlength]
    exact List.getElem_mem hlength
  constructor
  case node => exact fun id hle hlt => hquiet parent first _ (hrow id hle hlt)
  case child =>
    exact fun id hle hlt => Branch.child_forestRows parent first branches _ (hrow id hle hlt)

end Script

end SignalScript
