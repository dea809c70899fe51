import SignalScript.Builder
import SignalScript.Proofs.Tree.Evolution

/-!
# What steps of a builder change

The nodes on the way from the root to the cursor are open.  A step changes rows of open
nodes and adds new ones below them, and it leaves the cursor at an open node or at a new
one.  Only an `ELSE` changes one more node, the conditional that it goes back into.
-/

namespace SignalScript

namespace Builder

/-- The nodes on the way from the cursor to the root. -/
def openIds (builder : Builder) : List Nat :=
  builder.cursor :: builder.script.ancestors builder.cursor

/-- Whether all nodes that a builder can change, the open ones and new ones, have a
property. -/
structure Confined (touched : Nat → Prop) (builder : Builder) : Prop where
  cursor_lt : builder.cursor < builder.script.nodeCount
  upward : builder.script.Upward
  isOpen : ∀ id ∈ builder.openIds, touched id
  isNew : ∀ id, builder.script.nodeCount ≤ id → touched id

/-- Whether a builder comes to another one by changes of nodes with a property. -/
structure EvolvesTo (touched : Nat → Prop) (line : Nat) (builder next : Builder) : Prop where
  script : builder.script.Evolves touched line next.script
  confined : next.Confined touched

/-- Whether a builder evolves if it comes to another one at all. -/
def Evolving (touched : Nat → Prop) (line : Nat) (builder : Builder)
    (result : Except ParseError Builder) : Prop :=
  ∀ next, result = .ok next → EvolvesTo touched line builder next

variable {touched : Nat → Prop} {line : Nat} {builder next : Builder}

theorem EvolvesTo.evolving (hevolves : EvolvesTo touched line builder next) :
    Evolving touched line builder (.ok next) := by
  intro other hother
  rw [← Except.ok.inj hother]
  exact hevolves

theorem evolving_error (error : ParseError) :
    Evolving touched line builder (.error error) :=
  nofun

/-- What comes after a change of the table. -/
theorem Evolving.after {changed : Builder} {result : Except ParseError Builder}
    (hresult : Evolving touched line changed result)
    (hchanged : builder.script.Evolves touched line changed.script) :
    Evolving touched line builder result := by
  intro next hnext
  have hevolves := hresult next hnext
  exact ⟨hchanged.trans hevolves.script, hevolves.confined⟩

theorem Evolving.bind {first : Except ParseError Builder}
    {second : Builder → Except ParseError Builder} (hfirst : Evolving touched line builder first)
    (hsecond : ∀ middle : Builder, middle.Confined touched →
      Evolving touched line middle (second middle)) :
    Evolving touched line builder (first >>= second) := by
  cases first with
  | error error => exact evolving_error error
  | ok middle =>
      have hmiddle := hfirst middle rfl
      exact (hsecond middle hmiddle.confined).after hmiddle.script

namespace Confined

theorem refl (hconfined : builder.Confined touched) : EvolvesTo touched line builder builder :=
  ⟨.refl _, hconfined⟩

theorem lt_of_openIds (hconfined : builder.Confined touched) {id : Nat}
    (hid : id ∈ builder.openIds) : id < builder.script.nodeCount := by
  rcases List.mem_cons.mp hid with rfl | hmem
  · exact hconfined.cursor_lt
  · exact Nat.lt_trans (Script.of_mem_ancestors hmem).1 hconfined.cursor_lt

/-- The ancestors of an open node are open. -/
theorem ancestors_subset {id : Nat} (hid : id ∈ builder.openIds) :
    builder.script.ancestors id ⊆ builder.openIds := by
  intro other hmem
  rcases List.mem_cons.mp hid with rfl | hancestor
  · exact .tail _ hmem
  · exact .tail _ ((Script.of_mem_ancestors hancestor).2 hmem)

/-- The cursor may move to any open node. -/
theorem move (hconfined : builder.Confined touched) (next : Builder)
    (hscript : builder.script.Evolves touched line next.script)
    (hcursor : next.cursor ∈ builder.openIds) : EvolvesTo touched line builder next := by
  have hold := hconfined.lt_of_openIds hcursor
  have hancestors := hscript.toExtends.ancestors_eq hold
  refine ⟨hscript, Nat.lt_of_lt_of_le hold hscript.nodeCount_le,
    hconfined.upward.evolves hscript, ?_,
    fun id hid => hconfined.isNew id (Nat.le_trans hscript.nodeCount_le hid)⟩
  intro id hid
  rw [openIds, hancestors] at hid
  rcases List.mem_cons.mp hid with rfl | hmem
  · exact hconfined.isOpen _ hcursor
  · exact hconfined.isOpen id (ancestors_subset hcursor hmem)

theorem cursor_mem (builder : Builder) : builder.cursor ∈ builder.openIds :=
  .head _

/-- A change of the table leaves the same nodes open. -/
theorem openIds_withScript (hconfined : builder.Confined touched) {script : Script}
    (hscript : builder.script.Evolves touched line script) :
    ({ builder with script } : Builder).openIds = builder.openIds := by
  simp only [openIds, hscript.toExtends.ancestors_eq hconfined.cursor_lt]

theorem withScript (hconfined : builder.Confined touched) {script : Script}
    (hscript : builder.script.Evolves touched line script) :
    ({ builder with script } : Builder).Confined touched :=
  (hconfined.move { builder with script } hscript (cursor_mem builder)).confined

theorem parent_mem (hconfined : builder.Confined touched) {parent : Nat}
    (hparent : builder.script.parent? builder.cursor = some parent) :
    parent ∈ builder.openIds := by
  have hlt := hconfined.upward _ hconfined.cursor_lt parent hparent
  rw [openIds, Script.ancestors_of_parent? hparent hlt]
  exact .tail _ (.head _)

end Confined

/-! ## Opening nodes -/

theorem evolving_openChild (hconfined : builder.Confined touched) (kind : NodeKind) :
    Evolving touched line builder (builder.openChild kind line) := by
  have hpush := builder.script.evolves_push line hconfined.cursor_lt
    (hconfined.isOpen _ (Confined.cursor_mem builder)) kind
  have hparent : (builder.script.push builder.cursor kind line).parent? builder.script.nextId =
      some builder.cursor := by
    rw [Script.parent?, Script.node_push_nextId _ _ _ _ hconfined.cursor_lt]
  have hancestors := Script.ancestors_of_parent? hparent hconfined.cursor_lt
  rw [hpush.toExtends.ancestors_eq hconfined.cursor_lt] at hancestors
  have hopened : EvolvesTo touched line builder
      { builder with
        script := builder.script.push builder.cursor kind line
        cursor := builder.script.nextId } := by
    refine ⟨hpush, ?_, hconfined.upward.evolves hpush, ?_, ?_⟩
    · rw [Script.nodeCount_push]
      exact Nat.lt_succ_self _
    · intro id hid
      rw [openIds, hancestors] at hid
      rcases List.mem_cons.mp hid with rfl | hmem
      · exact hconfined.isNew _ (Nat.le_refl _)
      · exact hconfined.isOpen id hmem
    · exact fun id hid => hconfined.isNew id (Nat.le_trans hpush.nodeCount_le hid)
  rw [openChild]
  split
  next hlimit => exact hopened.evolving
  next limit hlimit =>
    dsimp only
    split
    · exact evolving_error _
    · exact hopened.evolving

theorem evolving_requireSlot {result : Except ParseError Builder}
    (hresult : Evolving touched line builder result) :
    Evolving touched line builder (builder.requireSlot line >>= fun _ => result) := by
  cases builder.requireSlot line with
  | error error => exact evolving_error error
  | ok checked => exact hresult

theorem evolving_enterExpression (hconfined : builder.Confined touched) :
    Evolving touched line builder (builder.enterExpression line) := by
  rw [enterExpression]
  split
  · exact hconfined.refl.evolving
  · exact hconfined.refl.evolving
  · exact evolving_openChild hconfined _
  · exact evolving_openChild hconfined _
  · exact evolving_requireSlot (evolving_openChild hconfined _)
  · exact evolving_error _
  · exact evolving_error _

theorem evolving_addLeaf (hconfined : builder.Confined touched) (leaf : NodeKind) :
    Evolving touched line builder (builder.addLeaf leaf line) := by
  apply (evolving_enterExpression hconfined).bind
  intro target htarget next hnext
  obtain rfl := Except.ok.inj hnext
  have hpush := target.script.evolves_push line htarget.cursor_lt
    (htarget.isOpen _ (Confined.cursor_mem target)) leaf
  exact htarget.move _ hpush (Confined.cursor_mem target)

theorem evolving_openBlock (hconfined : builder.Confined touched) :
    Evolving touched line builder (builder.openBlock line) := by
  rw [openBlock]
  split
  · exact evolving_error _
  · exact evolving_error _
  · exact evolving_requireSlot (evolving_openChild hconfined _)
  · exact evolving_openChild hconfined _

theorem evolving_openEnclosure (hconfined : builder.Confined touched) :
    Evolving touched line builder (builder.openEnclosure line) := by
  rw [openEnclosure]
  split
  · exact evolving_openChild hconfined _
  · apply (evolving_enterExpression hconfined).bind
    intro target htarget
    exact evolving_openChild htarget _

theorem evolving_openConditional (hconfined : builder.Confined touched) :
    Evolving touched line builder (builder.openConditional line) := by
  rw [openConditional]
  split
  · exact evolving_error _
  · exact evolving_error _
  · exact evolving_requireSlot (evolving_openChild hconfined _)
  · exact evolving_openChild hconfined _

/-! ## Completing nodes -/

theorem evolving_returnFromAlternate (hconfined : builder.Confined touched) {conditional : Nat}
    (hopen : conditional ∈ builder.openIds) :
    Evolving touched line builder (builder.returnFromAlternate conditional line) := by
  simp only [returnFromAlternate]
  split
  next id hfound =>
    have hmem := Confined.ancestors_subset hopen (List.mem_of_find?_eq_some hfound)
    have hmark := builder.script.evolves_modify line (hconfined.isOpen id hmem)
      (fun node => { node with alternateReturn := false }) (Node.amends_setMark _ false)
    exact (hconfined.move _ hmark hmem).evolving
  next => exact evolving_error _

theorem evolving_ascend (hconfined : builder.Confined touched) {conditional : Nat}
    (hopen : conditional ∈ builder.openIds) (alternateDone : Bool) :
    Evolving touched line builder (builder.ascend conditional alternateDone line) := by
  have haround : ∀ id ∈ builder.script.enclosingConditionals conditional, touched id := by
    intro id hid
    have hmem := (List.takeWhile_sublist _).subset hid
    exact hconfined.isOpen id (Confined.ancestors_subset hopen hmem)
  have hfill := builder.script.evolves_foldl_modify line haround Node.amends_fill
  simp only [ascend]
  split
  · exact evolving_error _
  next container hcontainer =>
    have hmem : container ∈ builder.openIds :=
      Confined.ancestors_subset hopen (List.mem_of_find?_eq_some hcontainer)
    split
    · refine (evolving_returnFromAlternate (hconfined.withScript hfill) ?_).after hfill
      rwa [hconfined.openIds_withScript hfill]
    · exact (hconfined.move _ hfill hmem).evolving

theorem evolving_complete (hconfined : builder.Confined touched) :
    Evolving touched line builder (builder.complete line) := by
  simp only [complete]
  split
  · exact evolving_error _
  next parent hparent =>
    have hmem := hconfined.parent_mem hparent
    have htouched := hconfined.isOpen parent hmem
    -- The node and its parent are unlinked in any case.
    have hcursor := builder.script.evolves_modify line
      (hconfined.isOpen _ (Confined.cursor_mem builder)) Node.clearCurrent
      (Node.amends_clearCurrent _)
    have hunlinked := hcursor.trans
      (Script.evolves_modify _ line htouched Node.clearCurrent (Node.amends_clearCurrent _))
    have hlt := hconfined.lt_of_openIds hmem
    have hkind : ((builder.script.modify builder.cursor Node.clearCurrent).modify parent
        Node.clearCurrent).kind parent = builder.script.kind parent := by
      rw [Script.kind_modify _ _ Node.clearCurrent (fun _ => rfl) (by simpa using hlt),
        Script.kind_modify _ _ Node.clearCurrent (fun _ => rfl) hlt]
    have hphase : ∀ f : Phase → Phase,
        (∀ phase, builder.script.phase? parent = some phase → phase.rank ≤ (f phase).rank) →
          builder.script.Evolves touched line
            (((builder.script.modify builder.cursor Node.clearCurrent).modify parent
              Node.clearCurrent).modify parent (Node.mapPhase f)) := by
      intro f hforward
      refine hunlinked.trans
        (Script.evolves_modify _ line htouched (Node.mapPhase f) (Node.amends_mapPhase _ ?_))
      rw [← Script.kind, hkind]
      exact hforward
    have hfilled := hphase Phase.filled fun phase _ => phase.rank_le_filled
    have hfilledOpen := (hconfined.openIds_withScript hfilled).symm ▸ hmem
    have hfilledConfined := hconfined.withScript hfilled
    split
    · exact (hconfined.move _ hunlinked hmem).evolving
    next hwaits =>
      have hbody := hphase (fun _ => .awaitingBody) fun phase hsome => by
        rw [hwaits] at hsome
        rw [← Option.some.inj hsome]
        decide
      exact (hconfined.move _ hbody hmem).evolving
    · exact (evolving_ascend hfilledConfined hfilledOpen false).after hfilled
    · exact (evolving_ascend hfilledConfined hfilledOpen true).after hfilled
    · exact evolving_error _
    · exact evolving_error _

theorem evolving_endStatement (hconfined : builder.Confined touched) :
    Evolving touched line builder (builder.endStatement line) := by
  rw [endStatement]
  split
  · exact evolving_complete hconfined
  · exact evolving_error _
  · apply evolving_requireSlot
    apply (evolving_openChild hconfined .statement).bind
    intro empty hempty
    exact evolving_complete hempty
  · exact hconfined.refl.evolving

theorem evolving_closeNested (hconfined : builder.Confined touched) (closer : Closer) :
    Evolving touched line builder (builder.closeNested closer line) := by
  rw [closeNested]
  split
  · split
    · exact evolving_complete hconfined
    · exact evolving_error _
  · split
    · exact evolving_complete hconfined
    · exact evolving_error _
  all_goals exact evolving_error _

theorem evolving_endOpenBody (hconfined : builder.Confined touched) :
    Evolving touched line builder (builder.endOpenBody line) := by
  rw [endOpenBody]
  split
  · exact evolving_complete hconfined
  · exact hconfined.refl.evolving

/-! ## Steps -/

/-- An `ELSE` belongs to a conditional that has a body and no `ELSE`. -/
theorem phase?_of_alternateTarget? {target : Nat}
    (htarget : builder.alternateTarget? = some target) :
    builder.script.phase? target = some .bodyComplete := by
  rw [alternateTarget?] at htarget
  split at htarget
  · obtain ⟨last, -, hdeepest⟩ := Option.bind_eq_some_iff.mp htarget
    exact Script.phase?_of_deepestUnresolved hdeepest
  · obtain ⟨last, -, hdeepest⟩ := Option.bind_eq_some_iff.mp htarget
    exact Script.phase?_of_deepestUnresolved hdeepest
  · cases htarget

/-- An `ELSE` changes open nodes and the conditional that it goes back into. -/
theorem evolves_openAlternate (hconfined : builder.Confined touched)
    (hopen : builder.openAlternate line = .ok next) (htarget : touched next.cursor) :
    builder.script.Evolves touched line next.script := by
  rw [openAlternate] at hopen
  cases hend : builder.endOpenBody line with
  | error error => simp [hend, bind, Except.bind] at hopen
  | ok attached =>
      simp only [hend, bind, Except.bind] at hopen
      split at hopen
      next => cases hopen
      next target hfound =>
        obtain rfl := Except.ok.inj hopen
        have hattached := evolving_endOpenBody hconfined attached hend
        have hcursor := hattached.confined.isOpen _ (Confined.cursor_mem attached)
        have hmark := attached.script.evolves_modify line hcursor
          (fun node => { node with alternateReturn := true }) (Node.amends_setMark _ true)
        have hphase := phase?_of_alternateTarget? hfound
        have hkind := attached.script.kind_modify attached.cursor
          (fun node => { node with alternateReturn := true }) (fun _ => rfl)
          (Script.lt_nodeCount_of_phase? hphase)
        refine hattached.script.trans (hmark.trans (Script.evolves_modify _ line htarget _ ?_))
        refine Node.amends_mapPhase _ ?_
        rw [← Script.kind, hkind]
        intro phase hsome
        rw [← Option.some.inj (hphase.symm.trans hsome)]
        decide

/-- A step that is no `ELSE`. -/
theorem evolving_apply (hconfined : builder.Confined touched) {step : Step}
    (helse : step ≠ .openAlternate) : Evolving touched line builder (builder.apply step line) := by
  cases step with
  | value text => exact evolving_addLeaf hconfined _
  | operator text => exact evolving_addLeaf hconfined _
  | openBlock => exact evolving_openBlock hconfined
  | openEnclosure => exact evolving_openEnclosure hconfined
  | openConditional => exact evolving_openConditional hconfined
  | openAlternate => exact absurd rfl helse
  | close closer =>
      cases closer with
      | statement => exact evolving_endStatement hconfined
      | bracket => exact evolving_closeNested hconfined _
      | block => exact evolving_closeNested hconfined _

end Builder

end SignalScript
