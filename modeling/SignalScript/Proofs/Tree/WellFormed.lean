import SignalScript.Proofs.Grammar.Derivation
import SignalScript.Proofs.Tree.Spots
import SignalScript.Tree.Conditionals

/-!
# Well-formed tables

What the table of a finished script looks like: which children a node has, which phase
and mark a conditional has, where a statement may be empty and which texts a value may
have.  All of it is about a node and its parent, so a table that lists a branch is well
formed if every spot of the branch is.
-/

namespace SignalScript

namespace NodeKind

/-- Whether nodes of a kind stand in scripts, blocks and conditionals. -/
def isPhrase : NodeKind → Bool
  | .statement | .block | .conditional _ => true
  | _ => false

/-- Whether nodes of a kind stand in statements and enclosures. -/
def isExpr : NodeKind → Bool
  | .value _ | .operator _ | .enclosure => true
  | _ => false

/-- Whether the children of a finished node have the kinds that they may have.  The phase
of a conditional tells their number. -/
def Holds (kind : NodeKind) (children : List NodeKind) : Prop :=
  match kind with
  | .script | .block => ∀ child ∈ children, child.isPhrase = true
  | .statement | .enclosure => ∀ child ∈ children, child.isExpr = true
  | .value _ | .operator _ => children = []
  | .conditional state =>
    ∃ slots, children = .enclosure :: slots ∧ (∀ slot ∈ slots, slot.isPhrase = true) ∧
      (state.phase = .bodyComplete ∧ slots.length = 1 ∨
        state.phase = .complete ∧ slots.length = 2)

end NodeKind

/-- What the table of a finished script looks like. -/
structure Script.WellFormed (script : Script) : Prop where
  children : ∀ id < script.nodeCount,
    (script.kind id).Holds ((script.children id).map script.kind)
  /-- The conditionals of `ELSE IF` are marked as such, and no others. -/
  alternate : ∀ id < script.nodeCount, ∀ state, script.kind id = .conditional state →
    (state.isAlternateCondition = true ↔ ∃ parent, script.alternate? parent = some id)
  /-- Only a body or an alternate can be an empty statement. -/
  empty : ∀ id < script.nodeCount, script.kind id = .statement → script.children id = [] →
    (∃ parent, script.body? parent = some id ∨ script.alternate? parent = some id) ∧
      ∀ parent position, (script.children parent)[position]? = some id →
        script.isConditional parent = true ∧ (position = 1 ∨ position = 2)
  marks : ∀ id < script.nodeCount, (script.node id).alternateReturn = false
  values : ∀ id < script.nodeCount, ∀ text, script.kind id = .value text →
    text ∉ keywords ∧ text ∉ operatorWords

namespace Branch

/-- What a spot of a finished script looks like. -/
structure Spot.WellFormed (spot : Spot) : Prop where
  children : spot.kind.Holds (spot.branch.children.map Branch.kind)
  alternate : ∀ state, spot.kind = .conditional state →
    (state.isAlternateCondition = true ↔
      spot.parentKind.isConditional = true ∧ spot.position = 2)
  empty : spot.kind = .statement → spot.branch.children = [] →
    spot.parentKind.isConditional = true ∧ (spot.position = 1 ∨ spot.position = 2)
  value : ∀ text, spot.kind = .value text → text ∉ keywords ∧ text ∉ operatorWords

/-- The spots of a script that is a branch.  The topmost one has no parent; its own id
stands for it. -/
def rootSpots (root : Branch) : List Spot :=
  spots .script Script.root 0 Script.root root

end Branch

namespace Script

open Branch

/-- Whether a table has the rows of a branch, parents, links and lines aside, and no
marks. -/
def Lists (script : Script) (root : Branch) : Prop :=
  script.nodes.toList.map (fun node => (node.kind, node.children, node.alternateReturn)) =
    (rootSpots root).map fun spot => (spot.kind, spot.childIds, false)

theorem lists_ofPhrases (name : String) (line : Nat) (phrases : List Phrase) :
    (ofPhrases name line phrases).Lists (.node .script line (Phrase.branches phrases)) := by
  have hrows := map_row_forestSpots .script root 0 (root + 1) (Phrase.branches phrases)
  simp only [Lists, ofPhrases, rootSpots, spots, List.map_cons, ← hrows, List.map_map]
  rfl

variable {script : Script} {root : Branch}

/-! ## Spots and nodes -/

theorem Lists.nodeCount_eq (hlists : script.Lists root) : script.nodeCount = root.size := by
  have hlength := congrArg List.length hlists
  rw [List.length_map, List.length_map, Array.length_toList] at hlength
  rw [nodeCount, hlength, ← List.length_map Spot.id, rootSpots, map_id_spots,
    List.length_range']

/-- The node of a spot. -/
theorem Lists.node_eq (hlists : script.Lists root) {spot : Spot} (hmem : spot ∈ rootSpots root) :
    script.kind spot.id = spot.kind ∧ script.children spot.id = spot.childIds ∧
      (script.node spot.id).alternateReturn = false := by
  have hspot := (getElem?_spots hmem).2.2
  have hrow := congrArg (fun rows => rows[spot.id]?) hlists
  simp only [List.getElem?_map, rootSpots] at hrow
  rw [Script.root, Nat.sub_zero] at hspot
  rw [Script.root, hspot, Option.map_some, Option.map_eq_some_iff] at hrow
  obtain ⟨row, hfound, hentry⟩ := hrow
  rw [Array.getElem?_toList] at hfound
  have hnode : script.node spot.id = row := by
    rw [node, hfound, Option.getD_some]
  rw [kind, children, hnode]
  simpa only [Prod.mk.injEq] using hentry

theorem Lists.exists_spot (hlists : script.Lists root) {id : Nat} (hid : id < script.nodeCount) :
    ∃ spot ∈ rootSpots root, spot.id = id := by
  rw [hlists.nodeCount_eq] at hid
  exact Branch.exists_spot (Nat.zero_le id) (by rw [Script.root]; omega)

/-- A node outside the table has no children. -/
private theorem children_outside {id : Nat} (hid : ¬ id < script.nodeCount) :
    script.children id = [] := by
  rw [children, node, Array.getElem?_eq_none (by rw [nodeCount] at hid; omega)]
  rfl

/-- The spot of a node that a node lists as a child. -/
private theorem Lists.of_child (hlists : script.Lists root) {spot : Spot}
    (hmem : spot ∈ rootSpots root) {parent position : Nat}
    (hchild : (script.children parent)[position]? = some spot.id) :
    spot.parentKind = script.kind parent ∧ spot.position = position := by
  by_cases hparent : parent < script.nodeCount
  · obtain ⟨above, habove, rfl⟩ := hlists.exists_spot hparent
    obtain ⟨hkind, hchildren, -⟩ := hlists.node_eq habove
    rw [hchildren, Spot.getElem?_childIds, Option.map_eq_some_iff] at hchild
    obtain ⟨child, hfound, hid⟩ := hchild
    obtain rfl := spot_eq_of_id (child_mem_spots habove hfound) hmem hid
    exact ⟨hkind.symm, rfl⟩
  · rw [children_outside hparent] at hchild
    cases hchild

/-- Every node but the root is a child. -/
private theorem Lists.exists_parent (hlists : script.Lists root) {spot : Spot}
    (hmem : spot ∈ rootSpots root) (hroot : spot.branch ≠ root) :
    ∃ parent, script.kind parent = spot.parentKind ∧
      (script.children parent)[spot.position]? = some spot.id := by
  rcases eq_or_child _ _ _ _ root spot hmem with rfl | ⟨above, habove, index, child, hchild, rfl⟩
  · exact absurd rfl hroot
  · obtain ⟨hkind, hchildren, -⟩ := hlists.node_eq habove
    have hposition : above.childIds[index]? = some (above.child index child).id := by
      rw [Spot.getElem?_childIds, hchild, Option.map_some]
    exact ⟨above.id, hkind, by rw [hchildren]; exact hposition⟩

private theorem Lists.map_kind (hlists : script.Lists root) {spot : Spot}
    (hmem : spot ∈ rootSpots root) :
    spot.childIds.map script.kind = spot.branch.children.map Branch.kind := by
  apply List.ext_getElem?
  intro index
  rw [List.getElem?_map, List.getElem?_map, Spot.getElem?_childIds]
  cases hchild : spot.branch.children[index]? with
  | none => rfl
  | some child =>
      have hkind := (hlists.node_eq (child_mem_spots hmem hchild)).1
      exact congrArg some hkind

/-- A table is well formed if all spots of its branch are. -/
theorem Lists.wellFormed (hlists : script.Lists root) (hroot : root.kind = .script)
    (hspots : ∀ spot ∈ rootSpots root, spot.WellFormed) : script.WellFormed where
  children id hid := by
    obtain ⟨spot, hmem, rfl⟩ := hlists.exists_spot hid
    obtain ⟨hkind, hchildren, -⟩ := hlists.node_eq hmem
    rw [hkind, hchildren, hlists.map_kind hmem]
    exact (hspots spot hmem).children
  alternate id hid state hstate := by
    obtain ⟨spot, hmem, rfl⟩ := hlists.exists_spot hid
    rw [(hlists.node_eq hmem).1] at hstate
    rw [(hspots spot hmem).alternate state hstate]
    have hbranch : spot.branch ≠ root := by
      intro hsame
      rw [Spot.kind, hsame, hroot] at hstate
      cases hstate
    constructor
    · rintro ⟨hconditional, hposition⟩
      obtain ⟨parent, hkind, hchild⟩ := hlists.exists_parent hmem hbranch
      refine ⟨parent, ?_⟩
      rw [alternate?, slot?, hkind, if_pos hconditional, ← hposition]
      exact hchild
    · rintro ⟨parent, hchild⟩
      rw [alternate?, slot?] at hchild
      split at hchild
      next hconditional =>
        obtain ⟨hkind, hposition⟩ := hlists.of_child hmem hchild
        exact ⟨by rw [hkind]; exact hconditional, hposition⟩
      next => cases hchild
  empty id hid hstatement hempty := by
    obtain ⟨spot, hmem, rfl⟩ := hlists.exists_spot hid
    obtain ⟨hkind, hchildren, -⟩ := hlists.node_eq hmem
    rw [hkind] at hstatement
    have hleaves : spot.branch.children = [] := by
      have hmap := hlists.map_kind hmem
      rw [← hchildren, hempty] at hmap
      exact List.map_eq_nil_iff.mp hmap.symm
    obtain ⟨hconditional, hposition⟩ := (hspots spot hmem).empty hstatement hleaves
    have hbranch : spot.branch ≠ root := by
      intro hsame
      rw [Spot.kind, hsame, hroot] at hstatement
      cases hstatement
    constructor
    · obtain ⟨parent, hparent, hchild⟩ := hlists.exists_parent hmem hbranch
      refine ⟨parent, ?_⟩
      rw [body?, alternate?, slot?, slot?, hparent, if_pos hconditional, if_pos hconditional]
      rcases hposition with hbody | halternate
      · rw [hbody] at hchild
        exact .inl hchild
      · rw [halternate] at hchild
        exact .inr hchild
    · intro parent position hchild
      obtain ⟨hparent, hsame⟩ := hlists.of_child hmem hchild
      rw [isConditional, ← hparent, ← hsame]
      exact ⟨hconditional, hposition⟩
  marks id hid := by
    obtain ⟨spot, hmem, rfl⟩ := hlists.exists_spot hid
    exact (hlists.node_eq hmem).2.2
  values id hid text hvalue := by
    obtain ⟨spot, hmem, rfl⟩ := hlists.exists_spot hid
    rw [(hlists.node_eq hmem).1] at hvalue
    exact (hspots spot hmem).value text hvalue

end Script

end SignalScript
