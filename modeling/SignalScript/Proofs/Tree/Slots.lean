import SignalScript.Proofs.Grammar.Phrase
import SignalScript.Proofs.Tree.Spots
import SignalScript.Proofs.Tree.Stack

/-!
# Ways through bodies and alternates

From a conditional the ways lead on to its body and to its alternate, and from there to
those of further conditionals.  The walk for an `ELSE` takes only one of them: it never
looks into the body of a conditional that has an alternate.  In the table of a phrase it
misses nothing if no such body holds a conditional without an `ELSE`, and then it ends at
the last of those in the table.
-/

namespace SignalScript

namespace Script

/-- Whether the bodies and alternates of conditionals lead from a node to another one. -/
inductive Leads (script : Script) : Nat → Nat → Prop
  | here (id : Nat) : Leads script id id
  | body {id next target : Nat} (hbody : script.body? id = some next)
      (hrest : Leads script next target) : Leads script id target
  | alternate {id next target : Nat} (halternate : script.alternate? id = some next)
      (hrest : Leads script next target) : Leads script id target

/-- Whether a way leads to a conditional that has a body and no `ELSE`. -/
structure LeadsToOpen (script : Script) (id target : Nat) : Prop where
  leads : script.Leads id target
  phase : script.phase? target = some .bodyComplete

/-- A way ends where it begins, or begins with a body or an alternate. -/
theorem leadsToOpen_iff {script : Script} {id target : Nat} :
    script.LeadsToOpen id target ↔
      (target = id ∧ script.phase? id = some .bodyComplete) ∨
        (∃ next, script.body? id = some next ∧ script.LeadsToOpen next target) ∨
          ∃ next, script.alternate? id = some next ∧ script.LeadsToOpen next target := by
  constructor
  · rintro ⟨hleads, hphase⟩
    cases hleads with
    | here => exact .inl ⟨rfl, hphase⟩
    | body hbody hrest => exact .inr (.inl ⟨_, hbody, hrest, hphase⟩)
    | alternate halternate hrest => exact .inr (.inr ⟨_, halternate, hrest, hphase⟩)
  · rintro (⟨rfl, hphase⟩ | ⟨next, hbody, hrest, hphase⟩ | ⟨next, halternate, hrest, hphase⟩)
    · exact ⟨.here _, hphase⟩
    · exact ⟨.body hbody hrest, hphase⟩
    · exact ⟨.alternate halternate hrest, hphase⟩

/-! ## Branches in a table -/

/-- Whether the rows of a table from an id on are those of branches below a parent. -/
def HasForest (script : Script) (parent first : Nat) (branches : List Branch) : Prop :=
  Branch.forestRows parent first branches <+: script.nodes.toList.drop first

/-- Whether the rows of a table from an id on are those of a branch below a parent. -/
def HasBranch (script : Script) (parent id : Nat) (branch : Branch) : Prop :=
  Branch.rows parent id branch <+: script.nodes.toList.drop id

section Branches

variable {script : Script} {parent id first : Nat} {branch : Branch} {branches : List Branch}

private theorem prefix_drop_of_append {α : Type} {left right list : List α} {start : Nat}
    (hstart : left ++ right <+: list.drop start) :
    right <+: list.drop (start + left.length) := by
  obtain ⟨tail, htail⟩ := hstart
  refine ⟨tail, ?_⟩
  rw [← List.drop_drop, ← htail, List.append_assoc, List.drop_left]

theorem HasForest.head (hforest : script.HasForest parent first (branch :: branches)) :
    script.HasBranch parent first branch :=
  (List.prefix_append _ _).trans hforest

theorem HasForest.tail (hforest : script.HasForest parent first (branch :: branches)) :
    script.HasForest parent (first + branch.size) branches := by
  have hrest := prefix_drop_of_append hforest
  rwa [Branch.length_rows] at hrest

/-- The last of branches stands behind the others. -/
theorem HasForest.last
    (hforest : script.HasForest parent first (branches ++ [branch])) :
    script.HasBranch parent (first + Branch.forestSize branches) branch := by
  rw [HasForest, Branch.forestRows_append] at hforest
  have hrest := prefix_drop_of_append hforest
  rw [Branch.length_forestRows] at hrest
  exact HasForest.head hrest

/-- Below the topmost node of a branch are its children. -/
theorem HasBranch.below (hbranch : script.HasBranch parent id branch) :
    script.HasForest id (id + 1) branch.children := by
  cases branch with
  | node kind line children =>
      have hrow : [_] ++ _ <+: script.nodes.toList.drop id := hbranch
      exact prefix_drop_of_append hrow

theorem HasBranch.le_nodeCount (hbranch : script.HasBranch parent id branch) :
    id + branch.size ≤ script.nodeCount := by
  have hpositive := branch.size_pos
  have hlength := hbranch.length_le
  rw [Branch.length_rows, List.length_drop, Array.length_toList] at hlength
  rw [nodeCount]
  omega

/-- The row of the topmost node of a branch. -/
theorem HasBranch.node_eq (hbranch : script.HasBranch parent id branch) :
    script.kind id = branch.kind ∧
      script.children id = Branch.forestIds (id + 1) branch.children := by
  cases branch with
  | node kind line children =>
      obtain ⟨tail, htail⟩ := hbranch
      have hfirst := congrArg (·[0]?) htail
      simp only [Branch.rows, List.cons_append, List.getElem?_cons_zero, List.getElem?_drop,
        Nat.add_zero, Array.getElem?_toList] at hfirst
      rw [Script.kind, Script.children, node, ← hfirst]
      exact ⟨rfl, rfl⟩

/-- The slots of the topmost node of a branch. -/
theorem HasBranch.slot?_eq (hbranch : script.HasBranch parent id branch) (position : Nat) :
    script.slot? id position =
      if branch.kind.isConditional then
        (Branch.forestIds (id + 1) branch.children)[position]?
      else none := by
  rw [slot?, hbranch.node_eq.1, hbranch.node_eq.2]

theorem HasBranch.phase?_eq (hbranch : script.HasBranch parent id branch) :
    script.phase? id = branch.kind.conditional?.map (·.phase) := by
  rw [phase?, conditional?, hbranch.node_eq.1]

end Branches

end Script

/-- Below a frame stand its complete branches. -/
theorem Stack.hasForest_frame (name : String) (line : Nat) (inner : Stack) (frame : Frame)
    (outer : Stack) :
    (Stack.script name line (inner ++ frame :: outer)).HasForest (Stack.size outer)
      (Stack.size outer + 1) frame.closed := by
  obtain ⟨isOpen, tail, hrows⟩ : ∃ isOpen tail, Stack.rows (inner ++ frame :: outer) =
      Stack.innerRows outer ++ Stack.frameRows frame outer isOpen ++ tail := by
    cases inner with
    | nil => exact ⟨false, [], (List.append_nil _).symm⟩
    | cons top inner =>
        obtain ⟨tail, htail⟩ := Stack.innerRows_append inner (frame :: outer)
        exact ⟨true, _, by
          rw [List.cons_append, Stack.rows, htail, List.append_assoc, Stack.innerRows]⟩
  have hlength : (Stack.innerRows outer ++
      [frame.row (Stack.topId? outer) (Stack.size outer) isOpen]).length =
        Stack.size outer + 1 := by
    simp
  have hlist : (Stack.script name line (inner ++ frame :: outer)).nodes.toList =
      (Stack.innerRows outer ++ [frame.row (Stack.topId? outer) (Stack.size outer) isOpen]) ++
        (Branch.forestRows (Stack.size outer) (Stack.size outer + 1) frame.closed ++ tail) := by
    simp [Stack.script, hrows, Stack.frameRows]
  rw [Script.HasForest, hlist, List.drop_left' hlength]
  exact List.prefix_append _ _

/-! ## Phrases in a table -/

namespace Phrase

/-- The size of a branch does not depend on where the phrase stands. -/
theorem size_branch (phrase : Phrase) (isAlternate : Bool) :
    (phrase.branch isAlternate).size = (phrase.branch false).size := by
  cases phrase <;> rfl

/-- The ids of the conditionals without an `ELSE` that the ways from a phrase lead to, in the
order of the table. -/
def openIds (id : Nat) : Phrase → List Nat
  | .statement _ _ | .block _ _ => []
  | .conditional condition body => id :: body.openIds (id + 1 + condition.branch.size)
  | .alternative condition body alternate =>
    body.openIds (id + 1 + condition.branch.size) ++
      alternate.openIds (id + 1 + condition.branch.size + (body.branch false).size)

theorem length_openIds (id : Nat) (phrase : Phrase) :
    (phrase.openIds id).length = phrase.openIfs := by
  fun_induction openIds id phrase with
  | case1 id line exprs => rfl
  | case2 id line phrases => rfl
  | case3 id condition body ih => rw [List.length_cons, ih, openIfs]
  | case4 id condition body alternate ihBody ihAlternate =>
    rw [List.length_append, ihBody, ihAlternate, openIfs]

/-- Whether every `ELSE` of a phrase, outside all braces in it, belongs to the nearest `IF`
before it that has none. -/
def Nearest : Phrase → Prop
  | .statement _ _ | .block _ _ => True
  | .conditional _ body => body.Nearest
  | .alternative _ body alternate => body.openIfs = 0 ∧ alternate.Nearest

theorem openIds_of_openIfs {phrase : Phrase} (hopen : phrase.openIfs = 0) (id : Nat) :
    phrase.openIds id = [] :=
  List.length_eq_zero_iff.mp ((length_openIds id phrase).trans hopen)

/-- The conditionals stand in the branch of the phrase, each before those that it leads to. -/
theorem openIds_sorted (id : Nat) (phrase : Phrase) :
    (phrase.openIds id).Pairwise (· < ·) ∧
      ∀ target ∈ phrase.openIds id, id ≤ target ∧ target < id + (phrase.branch false).size := by
  fun_induction openIds id phrase with
  | case1 id line exprs => exact ⟨.nil, nofun⟩
  | case2 id line phrases => exact ⟨.nil, nofun⟩
  | case3 id condition body ih =>
    obtain ⟨hsorted, hbounds⟩ := ih
    simp only [branch, Branch.size_node, Branch.forestSize_cons, Branch.forestSize_nil]
    refine ⟨List.pairwise_cons.mpr ⟨?_, hsorted⟩, ?_⟩
    · intro target hmem
      have := hbounds target hmem
      omega
    · intro target hmem
      rcases List.mem_cons.mp hmem with rfl | hbody
      · omega
      · have := hbounds target hbody
        omega
  | case4 id condition body alternate ihBody ihAlternate =>
    obtain ⟨hbody, hinBody⟩ := ihBody
    obtain ⟨halternate, hinAlternate⟩ := ihAlternate
    have hsize := alternate.size_branch true
    simp only [branch, Branch.size_node, Branch.forestSize_cons, Branch.forestSize_nil, hsize]
    refine ⟨List.pairwise_append.mpr ⟨hbody, halternate, ?_⟩, ?_⟩
    · intro first hfirst second hsecond
      have := hinBody first hfirst
      have := hinAlternate second hsecond
      omega
    · intro target hmem
      rcases List.mem_append.mp hmem with hfirst | hsecond
      · have := hinBody target hfirst
        omega
      · have := hinAlternate target hsecond
        omega

variable {script : Script} {parent id : Nat} {isAlternate : Bool}

/-- What the table says about a conditional that has no `ELSE`. -/
structure OpenAt (script : Script) (id : Nat) (condition : Condition) (body : Phrase) : Prop where
  phase : script.phase? id = some .bodyComplete
  bodySlot : script.body? id = some (id + 1 + condition.branch.size)
  alternateSlot : script.alternate? id = none
  inBody : script.HasBranch id (id + 1 + condition.branch.size) (body.branch false)

/-- What the table says about a conditional that has an `ELSE`. -/
structure CompleteAt (script : Script) (id : Nat) (condition : Condition)
    (body alternate : Phrase) : Prop where
  phase : script.phase? id = some .complete
  bodySlot : script.body? id = some (id + 1 + condition.branch.size)
  alternateSlot : script.alternate? id =
    some (id + 1 + condition.branch.size + (body.branch false).size)
  inBody : script.HasBranch id (id + 1 + condition.branch.size) (body.branch false)
  inAlternate : script.HasBranch id
    (id + 1 + condition.branch.size + (body.branch false).size) (alternate.branch true)

theorem openAt_of_hasBranch {condition : Condition} {body : Phrase}
    (hbranch : script.HasBranch parent id ((conditional condition body).branch isAlternate)) :
    OpenAt script id condition body where
  phase := hbranch.phase?_eq
  bodySlot := hbranch.slot?_eq 1
  alternateSlot := hbranch.slot?_eq 2
  inBody := hbranch.below.tail.head

theorem completeAt_of_hasBranch {condition : Condition} {body alternate : Phrase}
    (hbranch : script.HasBranch parent id
      ((alternative condition body alternate).branch isAlternate)) :
    CompleteAt script id condition body alternate where
  phase := hbranch.phase?_eq
  bodySlot := hbranch.slot?_eq 1
  alternateSlot := hbranch.slot?_eq 2
  inBody := hbranch.below.tail.head
  inAlternate := hbranch.below.tail.tail.head

/-- The ways from a node that is no conditional end there. -/
theorem not_leadsToOpen {branch : Branch} (hbranch : script.HasBranch parent id branch)
    (hkind : branch.kind.isConditional = false) (target : Nat) :
    ¬ script.LeadsToOpen id target := by
  have hslot : ∀ position, script.slot? id position = none := by
    intro position
    rw [hbranch.slot?_eq, hkind]
    rfl
  have hphase : script.phase? id ≠ some .bodyComplete := by
    rw [hbranch.phase?_eq]
    cases hcases : branch.kind <;>
      simp [hcases, NodeKind.isConditional, NodeKind.conditional?] at hkind ⊢
  rw [Script.leadsToOpen_iff, Script.body?, Script.alternate?, hslot, hslot]
  simp [hphase]

/-- The ways from a phrase lead to the conditionals that it lists. -/
theorem mem_openIds_iff {phrase : Phrase}
    (hbranch : script.HasBranch parent id (phrase.branch isAlternate)) {target : Nat} :
    target ∈ phrase.openIds id ↔ script.LeadsToOpen id target := by
  fun_induction openIds id phrase generalizing parent isAlternate with
  | case1 id line exprs => simpa using not_leadsToOpen hbranch rfl target
  | case2 id line phrases => simpa using not_leadsToOpen hbranch rfl target
  | case3 id condition body ih =>
    obtain ⟨hphase, hbody, halternate, hinBody⟩ := openAt_of_hasBranch hbranch
    rw [Script.leadsToOpen_iff, hphase, hbody, halternate, List.mem_cons, ih hinBody]
    simp
  | case4 id condition body alternate ihBody ihAlternate =>
    obtain ⟨hphase, hbody, halternate, hinBody, hinAlternate⟩ := completeAt_of_hasBranch hbranch
    rw [Script.leadsToOpen_iff, hphase, hbody, halternate, List.mem_append, ihBody hinBody,
      ihAlternate hinAlternate]
    simp

/-- The walk for an `ELSE` ends at the last conditional that any way leads to. -/
theorem deepestUnresolved_eq_getLast? {phrase : Phrase} (hnearest : phrase.Nearest)
    (hbranch : script.HasBranch parent id (phrase.branch isAlternate)) :
    script.deepestUnresolved id = (phrase.openIds id).getLast? := by
  fun_induction openIds id phrase generalizing parent isAlternate with
  | case1 id line exprs =>
    rw [Script.deepestUnresolved, hbranch.phase?_eq]
    rfl
  | case2 id line phrases =>
    rw [Script.deepestUnresolved, hbranch.phase?_eq]
    rfl
  | case3 id condition body ih =>
    obtain ⟨hphase, hbody, -, hinBody⟩ := openAt_of_hasBranch hbranch
    have hcount := hinBody.le_nodeCount
    have hpositive := Branch.size_pos (body.branch false)
    rw [Script.deepestUnresolved_of_bodyComplete script hphase hbody (by omega),
      ih hnearest hinBody, List.getLast?_cons]
    cases (body.openIds (id + 1 + condition.branch.size)).getLast? <;> rfl
  | case4 id condition body alternate ihBody ihAlternate =>
    obtain ⟨hphase, -, halternate, -, hinAlternate⟩ := completeAt_of_hasBranch hbranch
    have hcount := hinAlternate.le_nodeCount
    have hpositive := Branch.size_pos (alternate.branch true)
    rw [Script.deepestUnresolved_of_complete script hphase halternate (by omega),
      ihAlternate hnearest.2 hinAlternate, openIds_of_openIfs hnearest.1, List.nil_append]

end Phrase

end SignalScript
