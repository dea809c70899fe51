import SignalScript.Proofs.Builder.Awaiting
import SignalScript.Proofs.Builder.Consistency

/-!
# Where building goes on after an alternate

At a position only the conditional that an `ELSE` was read for waits for its alternate, so
on every level one conditional does just if the container is marked.  When a phrase
completes the level, its container is where building goes on, and if it is marked it is
the first marked node on the way out.
-/

namespace SignalScript

/-! ## Marks that stay -/

namespace Script

variable {change : Node → Node}

/-- A change that keeps the mark of a node keeps all marks. -/
theorem alternateReturn_modify
    (hkept : ∀ node, (change node).alternateReturn = node.alternateReturn)
    (script : Script) (id other : Nat) :
    ((script.modify id change).node other).alternateReturn =
      (script.node other).alternateReturn := by
  by_cases hbound : other < script.nodeCount
  · rw [node_modify script id other change hbound]
    split
    · exact hkept _
    · rfl
  · have hle := Nat.not_lt.mp hbound
    rw [node_outside hle, node_outside (by rwa [nodeCount_modify])]

theorem alternateReturn_foldl_modify
    (hkept : ∀ node, (change node).alternateReturn = node.alternateReturn)
    (script : Script) (ids : List Nat) (other : Nat) :
    ((ids.foldl (fun script id => script.modify id change) script).node other).alternateReturn =
      (script.node other).alternateReturn := by
  induction ids generalizing script with
  | nil => rfl
  | cons id rest ih => rw [List.foldl_cons, ih, alternateReturn_modify hkept]

/-- Taking a mark away takes no other one away. -/
theorem alternateReturn_unmark (script : Script) (id other : Nat) :
    ((script.modify id fun node => { node with alternateReturn := false }).node
      other).alternateReturn =
        if other = id then false else (script.node other).alternateReturn := by
  by_cases hbound : other < script.nodeCount
  · rw [node_modify _ _ _ _ hbound]
    split
    · rfl
    · rfl
  · have hle := Nat.not_lt.mp hbound
    rw [node_outside hle, node_outside (by rwa [nodeCount_modify]), ite_self]

end Script

namespace Node

theorem alternateReturn_clearCurrent (node : Node) :
    node.clearCurrent.alternateReturn = node.alternateReturn := rfl

theorem alternateReturn_mapPhase (f : Phase → Phase) (node : Node) :
    (node.mapPhase f).alternateReturn = node.alternateReturn := by
  rw [mapPhase]
  split
  · rfl
  · rfl

end Node

namespace Builder

/-- Whether the alternate of a conditional, or of one that it is the last part of, ends with
what has been read; `done` tells it of the conditional itself. -/
def endsAlternate (builder : Builder) (conditional : Nat) (done : Bool) : Bool :=
  done || (builder.script.enclosingConditionals conditional).any fun id =>
    builder.script.phase? id == some .awaitingAlternate

/-- The builder behind all conditionals that a conditional is the last part of. -/
def fillAround (builder : Builder) (conditional : Nat) : Builder :=
  { builder with
    script := (builder.script.enclosingConditionals conditional).foldl
      (fun script id => script.modify id fun node => (node.mapPhase Phase.filled).clearCurrent)
      builder.script }

/-- The two ways to go on after a conditional: at the mark, or at its container. -/
theorem ascend_of_container {builder : Builder} {conditional container : Nat}
    (hcontainer : builder.script.container? conditional = some container) (done : Bool)
    (line : Nat) :
    builder.ascend conditional done line =
      if builder.endsAlternate conditional done then
        (builder.fillAround conditional).returnFromAlternate conditional line
      else .ok { builder.fillAround conditional with cursor := container } := by
  rw [ascend, hcontainer]
  rfl

theorem alternateReturn_fillSlot (builder : Builder) (conditional id : Nat) :
    ((builder.fillSlot conditional).script.node id).alternateReturn =
      (builder.script.node id).alternateReturn := by
  rw [fillSlot, Script.alternateReturn_modify (Node.alternateReturn_mapPhase _),
    Script.alternateReturn_modify Node.alternateReturn_clearCurrent,
    Script.alternateReturn_modify Node.alternateReturn_clearCurrent]

theorem alternateReturn_fillAround (builder : Builder) (conditional id : Nat) :
    ((builder.fillAround conditional).script.node id).alternateReturn =
      (builder.script.node id).alternateReturn := by
  rw [fillAround]
  apply Script.alternateReturn_foldl_modify
  intro node
  rw [Node.alternateReturn_clearCurrent, Node.alternateReturn_mapPhase]

/-- Going back to a mark takes it away and no other one. -/
theorem alternateReturn_returnFromAlternate {builder next : Builder} {conditional line : Nat}
    (hreturn : builder.returnFromAlternate conditional line = .ok next) (id : Nat) :
    (next.script.node id).alternateReturn =
      if id = next.cursor then false else (builder.script.node id).alternateReturn := by
  rw [returnFromAlternate] at hreturn
  split at hreturn
  next found hfound =>
    obtain rfl := Except.ok.inj hreturn
    exact Script.alternateReturn_unmark builder.script found id
  next hnone => cases hreturn

/-- What leaving a conditional does to the marks. -/
theorem alternateReturn_ascend {builder next : Builder} {conditional line : Nat} {done : Bool}
    (hascend : builder.ascend conditional done line = .ok next) (id : Nat) :
    (next.script.node id).alternateReturn =
      if builder.endsAlternate conditional done ∧ id = next.cursor then false
      else (builder.script.node id).alternateReturn := by
  cases hcontainer : builder.script.container? conditional with
  | none =>
      rw [ascend, hcontainer] at hascend
      cases hascend
  | some container =>
      rw [ascend_of_container hcontainer] at hascend
      cases hends : builder.endsAlternate conditional done with
      | false =>
          rw [hends] at hascend
          obtain rfl := Except.ok.inj hascend
          simpa using builder.alternateReturn_fillAround conditional id
      | true =>
          rw [hends] at hascend
          rw [alternateReturn_returnFromAlternate hascend, alternateReturn_fillAround]
          simp

/-- Whether building goes on in the right place after what has been read has filled the slot
of a conditional: the mark that is found is that of the container around, it is there just
if an alternate ends, and it is the only one to be taken away. -/
structure ReturnsTo (builder : Builder) (conditional : Nat) (done : Bool) (line container : Nat)
    (next : Builder) : Prop where
  around : builder.script.container? conditional = some container
  ascended : builder.ascend conditional done line = .ok next
  returned (hends : builder.endsAlternate conditional done = true) :
    (builder.fillAround conditional).returnFromAlternate conditional line = .ok next
  cursor : next.cursor = container
  marked : (builder.script.node container).alternateReturn =
    builder.endsAlternate conditional done
  cleared : (next.script.node container).alternateReturn = false
  others (id : Nat) (hother : id ≠ container) :
    (next.script.node id).alternateReturn = (builder.script.node id).alternateReturn

/-- It is enough that building goes on in the container, and that it is marked when an
alternate ends. -/
theorem returnsTo_of_ascend {builder next : Builder} {conditional line container : Nat}
    {done : Bool} (hcontainer : builder.script.container? conditional = some container)
    (hascend : builder.ascend conditional done line = .ok next)
    (hcursor : next.cursor = container)
    (hmarked : (builder.script.node container).alternateReturn =
      builder.endsAlternate conditional done) :
    builder.ReturnsTo conditional done line container next where
  around := hcontainer
  ascended := hascend
  returned := by
    intro hends
    rwa [ascend_of_container hcontainer, if_pos hends] at hascend
  cursor := hcursor
  marked := hmarked
  cleared := by
    rw [alternateReturn_ascend hascend, hmarked]
    cases builder.endsAlternate conditional done <;> simp [hcursor]
  others := by
    intro id hother
    rw [alternateReturn_ascend hascend, if_neg fun hboth => hother (hboth.2.trans hcursor)]

/-- The builders at which reading something on a line completes the node at the cursor:
the builder itself, or the one in the empty statement that fills a slot. -/
inductive CompletesAt (builder : Builder) (line : Nat) : Builder → Prop
  | closed
      (hkind : builder.kind = .statement ∨ builder.kind = .enclosure ∨ builder.kind = .block) :
      CompletesAt builder line builder
  | empty {inside : Builder} (hkind : builder.kind.isConditional = true)
      (hslot : builder.requireSlot line = .ok ())
      (hopened : builder.openChild .statement line = .ok inside) :
      CompletesAt builder line inside

private theorem closeNested_cases (builder : Builder) (closer : Closer) (line : Nat) :
    (∃ error, builder.closeNested closer line = .error error) ∨
      (builder.kind = .enclosure ∨ builder.kind = .block) ∧
        builder.closeNested closer line = builder.complete line := by
  rw [closeNested]
  cases hkind : builder.kind with
  | enclosure => by_cases hcloser : closer = .bracket <;> simp [hcloser]
  | block => by_cases hcloser : closer = .block <;> simp [hcloser]
  | _ => simp

/-- What is read to close a node is refused, changes nothing, or completes a node. -/
theorem close_cases (builder : Builder) (closer : Closer) (line : Nat) :
    (∃ error, builder.close closer line = .error error) ∨
      builder.close closer line = .ok builder ∨
        ∃ inside, builder.CompletesAt line inside ∧
          builder.close closer line = inside.complete line := by
  have hnested : ∀ closer, (∃ error, builder.closeNested closer line = .error error) ∨
      ∃ inside, builder.CompletesAt line inside ∧
        builder.closeNested closer line = inside.complete line := by
    intro closer
    rcases builder.closeNested_cases closer line with herror | ⟨hkind, hcomplete⟩
    · exact .inl herror
    · exact .inr ⟨builder, .closed (.inr hkind), hcomplete⟩
  cases closer with
  | bracket => exact (hnested .bracket).imp_right .inr
  | block => exact (hnested .block).imp_right .inr
  | statement =>
      rw [close, endStatement]
      cases hkind : builder.kind with
      | statement => exact .inr (.inr ⟨builder, .closed (.inl hkind), rfl⟩)
      | enclosure => exact .inl ⟨_, rfl⟩
      | conditional state =>
          have hconditional : builder.kind.isConditional = true := by
            rw [hkind]
            rfl
          cases hslot : builder.requireSlot line with
          | error error => exact .inl ⟨error, rfl⟩
          | ok checked =>
              cases hopened : builder.openChild .statement line with
              | error error => exact .inl ⟨error, rfl⟩
              | ok inside => exact .inr (.inr ⟨inside, .empty hconditional hslot hopened, rfl⟩)
      | _ => exact .inr (.inl rfl)

/-- An `ELSE` completes the statement in front of it, or nothing. -/
theorem endOpenBody_cases (builder : Builder) (line : Nat) :
    builder.endOpenBody line = .ok builder ∨
      builder.CompletesAt line builder ∧ builder.endOpenBody line = builder.complete line := by
  rw [endOpenBody]
  split
  next hbody => exact .inr ⟨.closed (.inl hbody.1), rfl⟩
  next hbody => exact .inl rfl

/-- The empty statement is one that expressions could be in. -/
theorem enterExpression_of_slot {builder inside : Builder} {line : Nat}
    (hkind : builder.kind.isConditional = true) (hslot : builder.requireSlot line = .ok ())
    (hopened : builder.openChild .statement line = .ok inside) :
    builder.enterExpression line = .ok inside := by
  cases hcases : builder.kind <;>
    simp [enterExpression, hcases, NodeKind.isConditional, hslot, hopened, bind, Except.bind]
      at hkind ⊢

end Builder

namespace Stack

variable (name : String) (line : Nat) (readingName : Bool) (maxDepth : Option Nat)

/-- What stands in the slot of a conditional leads back to the container of its run. -/
theorem returnsTo_slot {top first container : Frame} {chain outer : Stack} {done : Bool}
    (hdone : (first.phase? == some .awaitingAlternate) = done)
    (hchain : ∀ frame ∈ chain, frame.kind.isConditional = true)
    (hcontainer : container.kind.isConditional = false)
    (hunmarked : ∀ frame ∈ chain, frame.marked = false)
    (hmarked : container.marked =
      (first :: chain).any fun frame => frame.phase? == some .awaitingAlternate)
    (nodeLine : Nat) :
    ∃ next, ((builder name line readingName maxDepth
        (top :: first :: (chain ++ container :: outer))).fillSlot
          (size (chain ++ container :: outer))).ReturnsTo
      (size (chain ++ container :: outer)) done nodeLine (size outer) next := by
  have hends : container.marked =
      (done || chain.any fun frame => frame.phase? == some .awaitingAlternate) := by
    rw [hmarked, List.any_cons, hdone]
  have hascend := ascend_chain name line readingName maxDepth [top.unlink] chain first.fill
    container outer (size (first :: (chain ++ container :: outer))) nodeLine done hchain
    hcontainer hunmarked hends
  have haround := @container?_chain name line [top.unlink] chain first.fill container outer hchain
    hcontainer
  have hwithin := @enclosingConditionals_chain name line [top.unlink] chain first.fill container
    outer hchain hcontainer
  have hany := any_awaitingAlternate_chain name line [top.unlink] chain first.fill container outer
  have hnode := node_frame name line (top.unlink :: first.fill :: chain) container outer
  rw [fillSlot_builder]
  simp only [List.cons_append, List.nil_append] at hascend haround hwithin hany hnode
  refine ⟨_, Builder.returnsTo_of_ascend haround hascend rfl ?_⟩
  simp only [Builder.endsAlternate, hwithin, hany, hnode, ← hends]
  rfl

end Stack

/-! ## The stack of a position -/

theorem Arm.isArm_chain {reopened isAlternate : Bool} {arms : List Arm} :
    ∀ frame ∈ Arm.chain reopened isAlternate arms, frame.IsArm := by
  intro frame hframe
  obtain ⟨⟨condition, body?⟩, inAlternate, rfl⟩ := Arm.frame_of_mem_chain hframe
  cases body? with
  | none =>
      exact ⟨rfl, rfl, Branch.forestQuiet_cons condition.quiet_branch Branch.forestQuiet_nil,
        .inl rfl⟩
  | some body =>
      exact ⟨rfl, rfl, Branch.forestQuiet_cons condition.quiet_branch
        (Branch.forestQuiet_cons (body.quiet_branch false) Branch.forestQuiet_nil), .inr rfl⟩

namespace Level

theorem isArm_chain (level : Level) : ∀ frame ∈ level.chain, frame.IsArm :=
  List.forall_mem_append.mpr ⟨Arm.isArm_chain, Arm.isArm_chain⟩

/-- On a level at most the conditional of an `ELSE` waits for its alternate. -/
theorem awaiting_chain (level : Level) (base : Stack) :
    Stack.awaiting base level.chain =
      match level.resumed? with
      | none => []
      | some resumed => [Stack.size (Arm.chain true false resumed.trail ++ base)] := by
  have hbodies : ∀ isAlternate (conditions : List Condition) (below : Stack),
      Stack.awaiting below (Arm.chain false isAlternate
        (conditions.map fun condition => ⟨condition, none⟩)) = [] := by
    intro isAlternate conditions below
    apply Stack.awaiting_eq_nil
    rw [Arm.any_awaitingAlternate_open, List.any_map]
    exact List.any_eq_false.mpr fun _ _ => Bool.false_ne_true
  have htrail : Stack.awaiting base (Arm.chain true false level.trail) = [] :=
    Stack.awaiting_eq_nil base (Arm.any_awaitingAlternate_reopened false level.trail)
  rw [chain, Stack.awaiting_append, htrail, List.append_nil, slots]
  cases hresumed : level.resumed? with
  | none => exact hbodies _ _ _
  | some resumed =>
      have htrail : level.trail = resumed.trail := by rw [trail, hresumed]
      rw [List.cons_append, List.nil_append, Arm.chain, Stack.awaiting_append, hbodies, htrail]
      rfl

/-- A level that stands in other open nodes. -/
theorem levelled_onto (level : Level) {kind : NodeKind} (containerLine : Nat) {outer : Stack}
    (hkind : kind = .script ∨ kind = .block) (houter : Stack.Levelled outer) :
    Stack.Levelled (level.onto kind containerLine outer) := by
  refine .level level.isArm_chain hkind (Phrase.quiet_branches level.done) ?_ ?_ houter
  · intro hmarked
    obtain ⟨resumed, hresumed⟩ := Option.isSome_iff_exists.mp hmarked
    exact ⟨_, by rw [awaiting_chain, hresumed]⟩
  · intro hunmarked
    rw [awaiting_chain, Option.isNone_iff_eq_none.mp (Option.isSome_eq_false_iff.mp hunmarked)]

theorem levelled_frames (line : Nat) (level : Level) (around : List (Level × Nat)) :
    Stack.Levelled (level.frames line around) := by
  induction around generalizing level with
  | nil => exact level.levelled_onto line (.inl rfl) .nil
  | cons outer around ih => exact level.levelled_onto outer.2 (.inr rfl) (ih outer.1)

end Level

namespace Focus

/-- A frame of open expressions. -/
private theorem levelled_exprs {kind : NodeKind} (line : Nat) (linked : Bool) (done : List Expr)
    {base : Stack} (hconditional : kind.isConditional = false)
    (hkind : ¬ (kind = .script ∨ kind = .block)) (hbase : Stack.Levelled base) :
    Stack.Levelled ({ kind, line, linked, closed := Expr.branches done } :: base) :=
  .plain ⟨rfl, Expr.quiet_branches done, hkind⟩
    (Frame.stops_of_kind (Expr.quiet_branches done) hconditional) hbase

private theorem levelled_head (inAlternate : Bool) (line : Nat) {base : Stack}
    (hbase : Stack.Levelled base) : Stack.Levelled (headFrame inAlternate line :: base) :=
  .plain ⟨rfl, Branch.forestQuiet_nil, by simp [headFrame]⟩
    ⟨Branch.forestQuiet_nil, by simp [headFrame, Frame.phase?, NodeKind.conditional?,
      Conditional.opened], fun _ => rfl⟩ hbase

theorem levelled_frames (inAlternate : Bool) {base : Stack} (hbase : Stack.Levelled base)
    (focus : Focus) : Stack.Levelled (focus.frames inAlternate base) := by
  cases focus with
  | phrase => exact hbase
  | head line => exact levelled_head inAlternate line hbase
  | exprs anchor around done =>
      rw [frames]
      induction around generalizing done with
      | nil =>
          cases anchor with
          | statement line => exact levelled_exprs line true done rfl (by simp) hbase
          | condition line bracketLine =>
              exact levelled_exprs bracketLine true done rfl (by simp)
                (levelled_head inAlternate line hbase)
      | cons outer around ih => exact levelled_exprs outer.2 true done rfl (by simp) (ih outer.1)

end Focus

namespace Position

variable (name : String) (line : Nat) (readingName : Bool) (maxDepth : Option Nat)

theorem levelled_stack (line : Nat) (position : Position) :
    Stack.Levelled (position.stack line) :=
  (position.focus.levelled_frames position.level.inAlternate
    (position.level.levelled_frames line position.around)).settle

/-- All marks of a builder that stands at a position are right. -/
theorem markedRight_builder (position : Position) (id : Nat) :
    (position.builder name line readingName maxDepth).script.MarkedRight id := by
  by_cases hid : id < Stack.size (position.stack line)
  · exact @Stack.Levelled.markedRight name line _ (position.levelled_stack line) [] nofun _ hid
  · have hnode := (position.builder name line readingName maxDepth).script.node_outside
      (by simpa [builder, Stack.builder] using hid)
    apply Script.markedRight_of_unmarked
    · rw [hnode]
    · rintro - target ⟨last, hlast, -⟩
      rw [Script.children, hnode] at hlast
      cases hlast

/-- A conditional that waits for its body or alternate stands in a run of conditionals
without marks, in a container that is marked just if one of them waits for its alternate. -/
theorem exists_slot (line : Nat) {position : Position} {first : Frame} {rest : Stack}
    (hframes : position.frames line = first :: rest)
    (hawaiting : first.phase? = some .awaitingBody ∨ first.phase? = some .awaitingAlternate) :
    ∃ (chain : Stack) (container : Frame) (outer : Stack),
      rest = chain ++ container :: outer ∧
        (∀ frame ∈ chain, frame.kind.isConditional = true) ∧
        container.kind.isConditional = false ∧ (∀ frame ∈ chain, frame.marked = false) ∧
        container.marked =
          (first :: chain).any fun frame => frame.phase? == some .awaitingAlternate := by
  -- Only where a phrase can begin does the innermost frame wait for one.
  cases hfocus : position.focus with
  | head headLine =>
      rw [frames_of_focus line hfocus] at hframes
      obtain ⟨rfl, -⟩ := List.cons.inj hframes
      simp [Focus.headFrame, Frame.phase?, NodeKind.conditional?, Conditional.opened]
        at hawaiting
  | exprs anchor around done =>
      obtain ⟨frameLine, outer, hexprs⟩ := exprs_top position.level.inAlternate
        (position.level.frames line position.around) anchor around
      rw [frames_of_focus line hfocus] at hframes
      obtain ⟨rfl, -⟩ := List.cons.inj (hframes.symm.trans (hexprs done))
      rcases around with _ | _ <;> cases anchor <;>
        simp [Frame.phase?, exprsKind, NodeKind.conditional?] at hawaiting
  | phrase =>
      obtain ⟨kind, containerLine, outer, hkind, hlevel⟩ := frames_level line position.around
      have hcontainer : kind.isConditional = false := by
        rcases hkind with ⟨rfl, -⟩ | ⟨rfl, -⟩
        · rfl
        · rfl
      have hconditional := position.level.isConditional_chain
      have hunmarked := position.level.marked_chain
      have hany := position.level.any_awaitingAlternate
      rw [frames_of_focus line hfocus, Focus.frames, hlevel, Level.onto] at hframes
      rcases position.level.chain_cases with
        ⟨-, -, hchain, -⟩ | ⟨arm, isAlternate, chain, -, -, hchain⟩
      · rw [hchain] at hframes
        obtain ⟨rfl, -⟩ := List.cons.inj hframes
        rcases hkind with ⟨rfl, -⟩ | ⟨rfl, -⟩ <;>
          simp [Level.container, Frame.phase?, NodeKind.conditional?] at hawaiting
      · rw [hchain] at hframes hconditional hunmarked hany
        obtain ⟨rfl, rfl⟩ := List.cons.inj hframes
        exact ⟨chain, _, outer, rfl, fun frame hframe => hconditional frame (.tail _ hframe),
          hcontainer, fun frame hframe => hunmarked frame (.tail _ hframe), hany.symm⟩

/-- What fills a slot at a position leads back to the container. -/
theorem returnsTo_builder (position : Position)
    (hscript : (position.builder name line readingName maxDepth).kind ≠ .script)
    (hconditional :
      (position.builder name line readingName maxDepth).kind.isConditional = false)
    {conditional : Nat}
    (hparent : (position.builder name line readingName maxDepth).script.parent?
      (position.builder name line readingName maxDepth).cursor = some conditional)
    {done : Bool}
    (hphase : (position.builder name line readingName maxDepth).script.phase? conditional =
      some (if done then .awaitingAlternate else .awaitingBody)) (nodeLine : Nat) :
    ∃ container next,
      ((position.builder name line readingName maxDepth).fillSlot conditional).ReturnsTo
        conditional done nodeLine container next := by
  obtain ⟨top, outer, hframes⟩ := frames_ne_nil line position
  rw [kind_of_frames _ _ _ _ hframes] at hscript hconditional
  obtain ⟨below, rfl⟩ := frames_below line hframes hscript hconditional
  obtain ⟨first, rest, hbelow⟩ := frames_ne_nil line below
  have hbuilder : position.builder name line readingName maxDepth =
      Stack.builder name line readingName maxDepth (top.settle :: first :: rest) := by
    rw [builder, stack, hframes, hbelow]
    rfl
  rw [hbuilder] at hparent hphase ⊢
  obtain rfl : Stack.size rest = conditional :=
    Option.some.inj ((Stack.parent?_frame name line [] top.settle (first :: rest)).symm.trans
      hparent)
  have hfirst : first.phase? = some (if done then .awaitingAlternate else .awaitingBody) :=
    (Stack.phase?_frame name line [top.settle] first rest).symm.trans hphase
  have hawaiting : first.phase? = some .awaitingBody ∨ first.phase? = some .awaitingAlternate := by
    cases done
    · exact .inl hfirst
    · exact .inr hfirst
  have hdone : (first.phase? == some .awaitingAlternate) = done := by
    rw [hfirst]
    cases done
    · rfl
    · rfl
  obtain ⟨chain, container, outer, rfl, hchain, hcontainer, hunmarked, hmarked⟩ :=
    exists_slot line hbelow hawaiting
  obtain ⟨next, hreturns⟩ := Stack.returnsTo_slot name line readingName maxDepth hdone hchain
    hcontainer hunmarked hmarked nodeLine
  exact ⟨_, next, hreturns⟩

/-- Where something is completed, there is a position at which a statement, block or bracket
is open. -/
theorem exists_of_completesAt {position : Position} {nodeLine : Nat} {inside : Builder}
    (hcompletes :
      (position.builder name line readingName maxDepth).CompletesAt nodeLine inside) :
    ∃ after : Position, inside = after.builder name line readingName maxDepth ∧
      inside.kind ≠ .script ∧ inside.kind.isConditional = false := by
  cases hcompletes with
  | closed hkind =>
      refine ⟨position, rfl, ?_⟩
      rcases hkind with hkind | hkind | hkind <;> simp [hkind, NodeKind.isConditional]
  | empty hkind hslot hopened =>
      have henter := Builder.enterExpression_of_slot hkind hslot hopened
      rw [enterExpression_builder] at henter
      cases hafter : position.enterExpression maxDepth nodeLine with
      | error error =>
          rw [hafter] at henter
          cases henter
      | ok after =>
          rw [hafter] at henter
          obtain rfl := Except.ok.inj henter
          obtain ⟨anchor, around, done, hfocus⟩ := focus_of_enterExpression hafter
          refine ⟨after, rfl, ?_⟩
          rw [kind_exprs _ _ _ _ hfocus]
          rcases around with _ | _ <;> cases anchor <;> simp [exprsKind, NodeKind.isConditional]

end Position

end SignalScript
