import SignalScript.Proofs.Tree.Growth
import SignalScript.Tree.Conditionals

/-!
# Tables that are built on

Building on a table keeps its nodes: they stay where they are, of the same kind and on the
same line, only the phase of a conditional moves forward, and children come behind those
that a node has.  `Evolves` says this together with what the changes are confined to, so it
can be put together from single changes.
-/

namespace SignalScript

/-- The place of a phase in the order in which a conditional gets its parts. -/
def Phase.rank : Phase → Nat
  | .awaitingCondition => 0
  | .awaitingBody => 1
  | .bodyComplete => 2
  | .awaitingAlternate => 3
  | .complete => 4

theorem Phase.rank_le_filled (phase : Phase) : phase.rank ≤ phase.filled.rank := by
  cases phase <;> decide

/-- Whether a kind is another one, or a conditional of the same sort whose phase has moved
forward. -/
inductive NodeKind.Advances : NodeKind → NodeKind → Prop
  | refl (kind : NodeKind) : Advances kind kind
  | forward {before after : Phase} {isAlternate : Bool} (hrank : before.rank ≤ after.rank) :
      Advances (.conditional ⟨before, isAlternate⟩) (.conditional ⟨after, isAlternate⟩)

namespace NodeKind.Advances

variable {first second third : NodeKind}

theorem trans (hfirst : first.Advances second) (hsecond : second.Advances third) :
    first.Advances third := by
  cases hfirst with
  | refl => exact hsecond
  | forward hrank =>
      cases hsecond with
      | refl => exact .forward hrank
      | forward hthen => exact .forward (Nat.le_trans hrank hthen)

theorem isLeaf_eq (hadvances : first.Advances second) : second.isLeaf = first.isLeaf := by
  cases hadvances with
  | refl => rfl
  | forward => rfl

theorem isConditional_eq (hadvances : first.Advances second) :
    second.isConditional = first.isConditional := by
  cases hadvances with
  | refl => rfl
  | forward => rfl

end NodeKind.Advances

/-- Whether a row is another one with changes that building makes to a node. -/
structure Node.Amends (before after : Node) : Prop where
  kind : before.kind.Advances after.kind
  parent : after.parent = before.parent
  children : after.children = before.children
  line : after.line = before.line

namespace Node

theorem Amends.refl (node : Node) : node.Amends node :=
  ⟨.refl _, rfl, rfl, rfl⟩

theorem Amends.trans {first second third : Node} (hfirst : first.Amends second)
    (hsecond : second.Amends third) : first.Amends third where
  kind := hfirst.kind.trans hsecond.kind
  parent := hsecond.parent.trans hfirst.parent
  children := hsecond.children.trans hfirst.children
  line := hsecond.line.trans hfirst.line

theorem amends_clearCurrent (node : Node) : node.Amends node.clearCurrent :=
  ⟨.refl _, rfl, rfl, rfl⟩

theorem amends_setMark (node : Node) (marked : Bool) :
    node.Amends { node with alternateReturn := marked } :=
  ⟨.refl _, rfl, rfl, rfl⟩

theorem amends_mapPhase (node : Node) {f : Phase → Phase}
    (hforward : ∀ phase, node.kind.conditional?.map (·.phase) = some phase →
      phase.rank ≤ (f phase).rank) : node.Amends (node.mapPhase f) := by
  rw [mapPhase]
  split
  next state hkind =>
    have hrank := hforward state.phase (by rw [hkind]; rfl)
    refine ⟨?_, rfl, rfl, rfl⟩
    rw [hkind]
    exact .forward hrank
  next => exact .refl node

theorem amends_fill (node : Node) : node.Amends (node.mapPhase Phase.filled).clearCurrent :=
  (node.amends_mapPhase fun phase _ => phase.rank_le_filled).trans (amends_clearCurrent _)

end Node

namespace Script

/-- Whether the second table comes about from the first by changes of nodes with a property
and new nodes on a line. -/
structure Evolves (touched : Nat → Prop) (line : Nat) (before after : Script) : Prop where
  header : after.line = before.line
  nodeCount_le : before.nodeCount ≤ after.nodeCount
  kind : ∀ id < before.nodeCount, (before.kind id).Advances (after.kind id)
  parent : ∀ id < before.nodeCount, after.parent? id = before.parent? id
  nodeLine : ∀ id < before.nodeCount, (after.node id).line = (before.node id).line
  children : ∀ id < before.nodeCount, ∃ added, after.children id = before.children id ++ added ∧
    ∀ child ∈ added, before.nodeCount ≤ child ∧ child < after.nodeCount
  untouched : ∀ id < before.nodeCount, ¬ touched id → after.node id = before.node id
  added : ∀ id < after.nodeCount, before.nodeCount ≤ id →
    (after.node id).line = line ∧ ∃ parent < id, after.parent? id = some parent

namespace Evolves

variable {touched : Nat → Prop} {line : Nat} {first second third before after : Script}

/-- A change of the rows that are there. -/
theorem of_amends (hheader : after.line = before.line)
    (hcount : after.nodeCount = before.nodeCount)
    (hamends : ∀ id < before.nodeCount, (before.node id).Amends (after.node id))
    (huntouched : ∀ id < before.nodeCount, ¬ touched id → after.node id = before.node id) :
    Evolves touched line before after where
  header := hheader
  nodeCount_le := Nat.le_of_eq hcount.symm
  kind id hid := (hamends id hid).kind
  parent id hid := (hamends id hid).parent
  nodeLine id hid := (hamends id hid).line
  children id hid := ⟨[], by rw [List.append_nil]; exact (hamends id hid).children,
    List.forall_mem_nil _⟩
  untouched := huntouched
  added id hid hnew := by omega

theorem refl (script : Script) : Evolves touched line script script :=
  of_amends rfl rfl (fun _ _ => .refl _) fun _ _ _ => rfl

theorem trans (hfirst : Evolves touched line first second)
    (hsecond : Evolves touched line second third) : Evolves touched line first third := by
  have hle := hfirst.nodeCount_le
  have hthen := hsecond.nodeCount_le
  constructor
  case header => rw [hsecond.header, hfirst.header]
  case nodeCount_le => exact Nat.le_trans hle hthen
  case kind => exact fun id hid => (hfirst.kind id hid).trans (hsecond.kind id (by omega))
  case parent =>
    intro id hid
    rw [hsecond.parent id (by omega), hfirst.parent id hid]
  case nodeLine =>
    intro id hid
    rw [hsecond.nodeLine id (by omega), hfirst.nodeLine id hid]
  case children =>
    intro id hid
    obtain ⟨early, hearly, hearlyNew⟩ := hfirst.children id hid
    obtain ⟨late, hlate, hlateNew⟩ := hsecond.children id (by omega)
    refine ⟨early ++ late, by rw [hlate, hearly, List.append_assoc], ?_⟩
    intro child hchild
    rcases List.mem_append.mp hchild with hmem | hmem
    · have hnew := hearlyNew child hmem
      omega
    · have hnew := hlateNew child hmem
      omega
  case untouched =>
    intro id hid htouched
    rw [hsecond.untouched id (by omega) htouched, hfirst.untouched id hid htouched]
  case added =>
    intro id hid hnew
    by_cases hmiddle : id < second.nodeCount
    · obtain ⟨hline, parent, hparent, hup⟩ := hfirst.added id hmiddle hnew
      rw [hsecond.nodeLine id hmiddle, hsecond.parent id hmiddle]
      exact ⟨hline, parent, hparent, hup⟩
    · exact hsecond.added id hid (by omega)

/-- Only which of the old nodes are touched matters. -/
theorem mono {other : Nat → Prop} (hevolves : Evolves touched line before after)
    (htouched : ∀ id < before.nodeCount, touched id → other id) :
    Evolves other line before after where
  header := hevolves.header
  nodeCount_le := hevolves.nodeCount_le
  kind := hevolves.kind
  parent := hevolves.parent
  nodeLine := hevolves.nodeLine
  children := hevolves.children
  untouched id hid hother := hevolves.untouched id hid fun h => hother (htouched id hid h)
  added := hevolves.added

theorem toExtends (hevolves : Evolves touched line before after) : before.Extends after where
  nodeCount_le := hevolves.nodeCount_le
  parent := hevolves.parent
  isLeaf id hid := (hevolves.kind id hid).isLeaf_eq

theorem isConditional_eq (hevolves : Evolves touched line before after) {id : Nat}
    (hid : id < before.nodeCount) : after.isConditional id = before.isConditional id :=
  (hevolves.kind id hid).isConditional_eq

/-- Without a new node no node has a new child. -/
theorem children_eq (hevolves : Evolves touched line before after)
    (hcount : after.nodeCount = before.nodeCount) {id : Nat} (hid : id < before.nodeCount) :
    after.children id = before.children id := by
  obtain ⟨added, hadded, hnew⟩ := hevolves.children id hid
  cases added with
  | nil => rw [hadded, List.append_nil]
  | cons child rest =>
      have hbounds := hnew child (.head _)
      omega

end Evolves

section Changes

variable {touched : Nat → Prop} (script : Script) (line : Nat)

theorem evolves_modify {id : Nat} (htouched : touched id) (change : Node → Node)
    (hamends : (script.node id).Amends (change (script.node id))) :
    script.Evolves touched line (script.modify id change) := by
  refine .of_amends rfl (nodeCount_modify script id change) ?_ ?_
  · intro other hother
    rw [node_modify script id other change hother]
    split
    next heq =>
      rw [heq]
      exact hamends
    next => exact .refl _
  · intro other hother huntouched
    rw [node_modify script id other change hother, if_neg]
    rintro rfl
    exact huntouched htouched

theorem evolves_foldl_modify {ids : List Nat} (htouched : ∀ id ∈ ids, touched id)
    {change : Node → Node} (hamends : ∀ node : Node, node.Amends (change node)) :
    script.Evolves touched line
      (ids.foldl (fun script id => script.modify id change) script) := by
  induction ids generalizing script with
  | nil => exact .refl script
  | cons id ids ih =>
      obtain ⟨hid, hids⟩ := List.forall_mem_cons.mp htouched
      exact (script.evolves_modify line hid change (hamends _)).trans (ih _ hids)

theorem evolves_push {parent : Nat} (hparent : parent < script.nodeCount)
    (htouched : touched parent) (kind : NodeKind) :
    script.Evolves touched line (script.push parent kind line) := by
  have hcount := script.nodeCount_push parent kind line
  have hold : ∀ id < script.nodeCount, _ := fun id hid =>
    script.node_push_of_lt parent kind line hid
  have hnew := script.node_push_nextId parent kind line hparent
  constructor
  case header => rfl
  case nodeCount_le => omega
  case kind =>
    intro id hid
    rw [Script.kind, Script.kind, hold id hid]
    split
    · exact .refl _
    · exact .refl _
  case parent =>
    intro id hid
    rw [parent?, parent?, hold id hid]
    split <;> rfl
  case nodeLine =>
    intro id hid
    rw [hold id hid]
    split <;> rfl
  case children =>
    intro id hid
    rw [children, children, hold id hid]
    split
    · refine ⟨[script.nextId], rfl, List.forall_mem_singleton.mpr ?_⟩
      rw [hcount]
      exact ⟨Nat.le_refl _, Nat.lt_succ_self _⟩
    · exact ⟨[], (List.append_nil _).symm, List.forall_mem_nil _⟩
  case untouched =>
    intro id hid huntouched
    rw [hold id hid, if_neg]
    rintro rfl
    exact huntouched htouched
  case added =>
    intro id hid hfirst
    have hid : id = script.nextId := by
      rw [hcount] at hid
      exact Nat.le_antisymm (Nat.le_of_lt_succ hid) hfirst
    rw [hid, parent?, hnew]
    exact ⟨rfl, parent, hparent, rfl⟩

end Changes

/-- A change that keeps the kind of its node keeps all kinds. -/
theorem kind_modify (script : Script) (id : Nat) (change : Node → Node)
    (hkeeps : ∀ node : Node, (change node).kind = node.kind) {other : Nat}
    (hother : other < script.nodeCount) :
    (script.modify id change).kind other = script.kind other := by
  rw [kind, kind, node_modify script id other change hother]
  split
  · exact hkeeps _
  · rfl

/-- Only a node of the table has a phase. -/
theorem lt_nodeCount_of_phase? {script : Script} {id : Nat} {phase : Phase}
    (hphase : script.phase? id = some phase) : id < script.nodeCount := by
  refine Nat.lt_of_not_le fun hle => ?_
  rw [phase?, conditional?, kind, node_outside hle] at hphase
  cases hphase

/-! ## Ancestors -/

/-- Whether every parent stands before its children. -/
def Upward (script : Script) : Prop :=
  ∀ id < script.nodeCount, ∀ parent, script.parent? id = some parent → parent < id

theorem Upward.evolves {touched : Nat → Prop} {line : Nat} {before after : Script}
    (hupward : before.Upward) (hevolves : before.Evolves touched line after) : after.Upward := by
  intro id hid parent hparent
  by_cases hold : id < before.nodeCount
  · rw [hevolves.parent id hold] at hparent
    exact hupward id hold parent hparent
  · obtain ⟨-, other, hlt, hother⟩ := hevolves.added id hid (Nat.le_of_not_lt hold)
    rw [hother] at hparent
    rwa [← Option.some.inj hparent]

theorem ancestors_of_parent? {script : Script} {id parent : Nat}
    (hparent : script.parent? id = some parent) (hlt : parent < id) :
    script.ancestors id = parent :: script.ancestors parent := by
  rw [ancestors, hparent]
  exact if_pos hlt

/-- The ancestors of a node stand before it, and theirs are its own. -/
theorem of_mem_ancestors {script : Script} {id other : Nat} (hmem : other ∈ script.ancestors id) :
    other < id ∧ script.ancestors other ⊆ script.ancestors id := by
  induction id using Nat.strongRecOn with
  | ind id ih =>
      rw [ancestors] at hmem
      split at hmem
      next parent hparent =>
        split at hmem
        next hlt =>
          rw [ancestors_of_parent? hparent hlt]
          rcases List.mem_cons.mp hmem with rfl | hmem
          · exact ⟨hlt, List.subset_cons_self _ _⟩
          · obtain ⟨hother, hsubset⟩ := ih parent hlt hmem
            exact ⟨Nat.lt_trans hother hlt, fun _ h => .tail _ (hsubset h)⟩
        next => cases hmem
      next => cases hmem

end Script

end SignalScript
