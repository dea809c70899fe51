import SignalScript.Proofs.Builder.Simulation

/-!
# What holds of every builder

A builder that stands at a position is consistent: the node at its cursor can
grow, a conditional at the cursor still waits for something that it does not have
yet, and a node can be completed without surprise.  So none of its steps fails for
a reason that has nothing to do with the script.
-/

namespace SignalScript

/-- Whether an error is about the tree being built and not about the script. -/
def ParseError.isInternal : ParseError → Bool
  | .unexpected _ _ | .missingAlternateReturn _ => true
  | _ => false

/-- Whether a conditional has everything that it was read for. -/
def Phase.isFilled : Phase → Bool
  | .bodyComplete | .complete => true
  | _ => false

/-- Every error of a result is about the script. -/
def Blameless {α : Type} (result : Except ParseError α) : Prop :=
  ∀ error, result = .error error → error.isInternal = false

theorem blameless_ok {α : Type} (value : α) : Blameless (.ok value) := by
  intro error herror
  cases herror

theorem blameless_error {α : Type} {error : ParseError} (herror : error.isInternal = false) :
    Blameless (.error error : Except ParseError α) := by
  intro other hother
  cases hother
  exact herror

theorem blameless_map {α β : Type} {result : Except ParseError α} (f : α → β)
    (hresult : Blameless result) : Blameless (result.map f) := by
  cases result with
  | error error => exact blameless_error (hresult error rfl)
  | ok value => exact blameless_ok (f value)

namespace Builder

/-- What ties the cursor of a builder to the kinds, phases and marks of its
table. -/
structure Consistent (builder : Builder) : Prop where
  cursor_lt : builder.cursor < builder.script.nodeCount
  cursor_not_leaf : builder.kind.isLeaf = false
  /-- A conditional at the cursor waits for one of its children. -/
  cursor_not_filled : builder.phase?.any Phase.isFilled = false
  condition_vacant : builder.phase? = some .awaitingCondition →
    builder.script.condition? builder.cursor = none
  body_vacant : builder.phase? = some .awaitingBody →
    builder.script.body? builder.cursor = none
  alternate_vacant : builder.phase? = some .awaitingAlternate →
    builder.script.alternate? builder.cursor = none
  /-- A node that can be completed has a parent with room for it. -/
  parent_not_filled : builder.kind ≠ .script → builder.kind.isConditional = false →
    ∃ parent, builder.script.parent? builder.cursor = some parent ∧
      (builder.script.phase? parent).any Phase.isFilled = false
  /-- Around a conditional that waits for its alternate, building goes on at a
  marked node. -/
  return_marked : ∀ id ∈ builder.cursor :: builder.script.ancestors builder.cursor,
    builder.script.phase? id = some .awaitingAlternate →
      ∃ container ∈ builder.script.ancestors id,
        (builder.script.node container).alternateReturn = true

end Builder

namespace Stack

/-- Outside of every frame that waits for an alternate there is a marked one. -/
def Returns : Stack → Prop
  | [] => True
  | frame :: outer =>
    (frame.phase? = some .awaitingAlternate → ∃ container ∈ outer, container.marked = true) ∧
      Returns outer

private theorem returns_append {chain : Stack} {container : Frame} {outer : Stack}
    (hchain : ∀ frame ∈ chain, frame.phase? = some .awaitingAlternate → container.marked = true)
    (houter : Returns (container :: outer)) : Returns (chain ++ container :: outer) := by
  induction chain with
  | nil => exact houter
  | cons frame rest ih =>
      refine ⟨fun hphase => ?_, ih fun other hother => hchain other (.tail _ hother)⟩
      exact ⟨container, by simp, hchain frame (.head _) hphase⟩

variable (name : String) (line : Nat)

private theorem marked_ids (inner : Stack) {outer : Stack} {container : Frame}
    (hcontainer : container ∈ outer) (hmarked : container.marked = true) :
    ∃ id ∈ ids outer, ((script name line (inner ++ outer)).node id).alternateReturn = true := by
  obtain ⟨front, rest, rfl⟩ := List.append_of_mem hcontainer
  refine ⟨size rest, ?_, ?_⟩
  · simp [ids_append, ids]
  · have hnode := node_frame name line (inner ++ front) container rest
    rw [List.append_assoc] at hnode
    rw [hnode]
    exact hmarked

/-- What a stack says of its frames, its table says of their nodes. -/
private theorem returns_ids (inner stack : Stack) (hreturns : Returns stack) :
    ∀ id ∈ ids stack, (script name line (inner ++ stack)).phase? id = some .awaitingAlternate →
      ∃ container ∈ (script name line (inner ++ stack)).ancestors id,
        ((script name line (inner ++ stack)).node container).alternateReturn = true := by
  induction stack generalizing inner with
  | nil => simp [ids]
  | cons frame outer ih =>
      intro id hid hphase
      have hframe := phase?_frame name line inner frame outer
      have hancestors := ancestors_frame name line inner frame outer
      have hstack : inner ++ frame :: outer = (inner ++ [frame]) ++ outer := by simp
      rcases List.mem_cons.mp hid with rfl | hid
      · rw [hframe] at hphase
        obtain ⟨container, hcontainer, hmarked⟩ := hreturns.1 hphase
        rw [hancestors, hstack]
        exact marked_ids name line (inner ++ [frame]) hcontainer hmarked
      · rw [hstack] at hphase ⊢
        exact ih (inner ++ [frame]) hreturns.2 id hid hphase

end Stack

namespace Position

variable (name : String) (line : Nat) (readingName : Bool) (maxDepth : Option Nat)

/-! ## Marks -/

private theorem returns_level (line : Nat) (level : Level) (around : List (Level × Nat)) :
    Stack.Returns (level.frames line around) := by
  have hchain : ∀ frame ∈ level.chain, frame.phase? = some .awaitingAlternate →
      level.resumed?.isSome = true := by
    intro frame hframe hphase
    rw [← level.any_awaitingAlternate, List.any_eq_true]
    exact ⟨frame, hframe, by simp [hphase]⟩
  cases around with
  | nil => exact Stack.returns_append hchain ⟨by simp [Level.container, Frame.phase?,
      NodeKind.conditional?], trivial⟩
  | cons outer around =>
      exact Stack.returns_append hchain ⟨by simp [Level.container, Frame.phase?,
        NodeKind.conditional?], returns_level line outer.1 around⟩

private theorem returns_exprFrames (inAlternate : Bool) {base : Stack} (anchor : Anchor)
    (around : List (List Expr × Nat)) (done : List Expr) (hbase : Stack.Returns base) :
    Stack.Returns (Focus.exprFrames inAlternate base anchor around done) := by
  induction around generalizing done with
  | nil =>
      cases anchor with
      | statement first =>
          exact ⟨by simp [Anchor.frame, Frame.phase?, NodeKind.conditional?], hbase⟩
      | condition headLine bracketLine =>
          exact ⟨by simp [Anchor.frame, Frame.phase?, NodeKind.conditional?],
            by simp [Focus.headFrame, Frame.phase?, NodeKind.conditional?, Conditional.opened],
            hbase⟩
  | cons outer around ih =>
      exact ⟨by simp [Frame.phase?, NodeKind.conditional?], ih outer.1⟩

private theorem returns_frames (line : Nat) (position : Position) :
    Stack.Returns (position.frames line) := by
  have hlevel := returns_level line position.level position.around
  cases hfocus : position.focus with
  | phrase =>
      rw [frames_of_focus line hfocus]
      exact hlevel
  | head headLine =>
      rw [frames_of_focus line hfocus]
      exact ⟨by simp [Focus.headFrame, Frame.phase?, NodeKind.conditional?, Conditional.opened],
        hlevel⟩
  | exprs anchor around done =>
      rw [frames_of_focus line hfocus]
      exact returns_exprFrames _ anchor around done hlevel

/-! ## The node at the cursor -/

theorem frames_ne_nil (line : Nat) (position : Position) :
    ∃ top outer, position.frames line = top :: outer := by
  cases hfocus : position.focus with
  | phrase =>
      obtain ⟨top, outer, hframes, _⟩ := phrase_top line position hfocus
      exact ⟨top, outer, hframes⟩
  | head headLine => exact ⟨_, _, frames_of_focus line hfocus⟩
  | exprs anchor around done =>
      obtain ⟨frameLine, outer, hframes⟩ := exprs_top position.level.inAlternate
        (position.level.frames line position.around) anchor around
      exact ⟨_, _, (frames_of_focus line hfocus).trans (hframes done)⟩

/-- A conditional at the cursor is not filled. -/
theorem phase?_not_filled (position : Position) : position.phase?.any Phase.isFilled = false := by
  rw [phase?]
  cases position.focus with
  | phrase =>
      simp only
      split
      · split <;> rfl
      · rfl
  | head headLine => rfl
  | exprs anchor around done => rfl

private theorem top_not_filled {position : Position} {top : Frame} {outer : Stack}
    (hframes : position.frames line = top :: outer) :
    top.phase?.any Phase.isFilled = false := by
  have hphase := phase?_of_frames "" line false none hframes
  rw [← hphase, phase?_builder]
  exact position.phase?_not_filled

private theorem isLeaf_top {position : Position} {top : Frame} {outer : Stack}
    (hframes : position.frames line = top :: outer) : top.kind.isLeaf = false := by
  cases hfocus : position.focus with
  | phrase =>
      obtain ⟨other, stack, hother, _, hcases⟩ := phrase_top line position hfocus
      obtain ⟨rfl, -⟩ := List.cons.inj (hframes.symm.trans hother)
      rcases hcases with ⟨_, _, ⟨hkind, _⟩ | ⟨hkind, _⟩⟩ | ⟨_, isAlternate, hkind⟩
      · rw [hkind]
        rfl
      · rw [hkind]
        rfl
      · rw [hkind]
        rfl
  | head headLine =>
      obtain ⟨rfl, -⟩ := List.cons.inj (hframes.symm.trans (frames_of_focus line hfocus))
      rfl
  | exprs anchor around done =>
      obtain ⟨frameLine, stack, hother⟩ := exprs_top position.level.inAlternate
        (position.level.frames line position.around) anchor around
      obtain ⟨rfl, -⟩ := List.cons.inj
        (hframes.symm.trans ((frames_of_focus line hfocus).trans (hother done)))
      rcases around with _ | _ <;> cases anchor <;> rfl

/-- Below a statement, block or enclosure at the cursor are the frames of another
position. -/
theorem frames_below {position : Position} {top : Frame} {outer : Stack}
    (hframes : position.frames line = top :: outer) (hscript : top.kind ≠ .script)
    (hconditional : top.kind.isConditional = false) :
    ∃ below : Position, outer = below.frames line := by
  cases hfocus : position.focus with
  | phrase =>
      rw [frames_of_focus line hfocus] at hframes
      rcases position.level.chain_cases with
        ⟨_, _, hchain, _⟩ | ⟨arm, isAlternate, rest, _, _, hchain⟩
      · cases haround : position.around with
        | nil =>
            simp only [haround, Focus.frames, Level.frames, Level.onto, hchain] at hframes
            obtain ⟨rfl, -⟩ := List.cons.inj hframes
            exact absurd rfl hscript
        | cons outside around =>
            simp only [haround, Focus.frames, Level.frames, Level.onto, hchain] at hframes
            exact ⟨{ level := outside.1, around }, (List.cons.inj hframes).2.symm⟩
      · obtain ⟨kind, containerLine, stack, _, hlevel⟩ := frames_level line position.around
        simp only [Focus.frames, hlevel, Level.onto, hchain] at hframes
        obtain ⟨rfl, -⟩ := List.cons.inj hframes
        simp [Arm.frame, NodeKind.isConditional] at hconditional
  | head headLine =>
      rw [frames_of_focus line hfocus] at hframes
      obtain ⟨rfl, rfl⟩ := List.cons.inj hframes
      simp [Focus.headFrame, NodeKind.isConditional] at hconditional
  | exprs anchor around done =>
      rw [frames_of_focus line hfocus] at hframes
      rcases around with _ | ⟨⟨left, bracketLine⟩, around⟩
      · cases anchor with
        | statement first =>
            obtain ⟨rfl, rfl⟩ := List.cons.inj hframes
            exact ⟨{ position with focus := .phrase }, rfl⟩
        | condition headLine bracketLine =>
            obtain ⟨rfl, rfl⟩ := List.cons.inj hframes
            exact ⟨{ position with focus := .head headLine }, rfl⟩
      · obtain ⟨rfl, rfl⟩ := List.cons.inj hframes
        exact ⟨{ position with focus := .exprs anchor around left }, rfl⟩

/-- The conditional at the cursor has no more children than it has waited for. -/
private theorem length_closed_top {position : Position} {top : Frame} {outer : Stack}
    (hframes : position.frames line = top :: outer) :
    match position.phase? with
    | some .awaitingCondition => top.closed.length = 0
    | some .awaitingBody => top.closed.length = 1
    | some .awaitingAlternate => top.closed.length = 2
    | _ => True := by
  rw [phase?]
  cases hfocus : position.focus with
  | phrase =>
      rw [frames_of_focus line hfocus] at hframes
      rcases position.level.chain_cases with
        ⟨hslot, _⟩ | ⟨arm, isAlternate, rest, hslot, hinAlternate, hchain⟩
      · simp [hslot]
      · obtain ⟨kind, containerLine, stack, _, hlevel⟩ := frames_level line position.around
        simp only [Focus.frames, hlevel, Level.onto, hchain] at hframes
        obtain ⟨rfl, -⟩ := List.cons.inj hframes
        rw [hslot, hinAlternate]
        rcases arm with ⟨condition, _ | body⟩ <;> rfl
  | head headLine =>
      rw [frames_of_focus line hfocus] at hframes
      obtain ⟨rfl, rfl⟩ := List.cons.inj hframes
      rfl
  | exprs anchor around done => trivial

/-- A slot of the node at the cursor that nothing has been read for is vacant. -/
private theorem vacant_builder {position : Position} {top : Frame} {outer : Stack}
    (hframes : position.frames line = top :: outer) {slot : Nat}
    (hslot : top.closed.length ≤ slot) :
    (position.builder name line readingName maxDepth).script.slot?
      (position.builder name line readingName maxDepth).cursor slot = none := by
  rw [builder, stack, hframes, Stack.settle]
  refine (Stack.slot?_frame name line top.settle outer slot).trans ?_
  split
  · exact List.getElem?_eq_none (by rw [Branch.length_forestIds]; exact hslot)
  · rfl

private theorem parent_builder {position : Position} {top : Frame} {outer : Stack}
    (hframes : position.frames line = top :: outer) (hscript : top.kind ≠ .script)
    (hconditional : top.kind.isConditional = false) :
    ∃ parent, (position.builder name line readingName maxDepth).script.parent?
        (position.builder name line readingName maxDepth).cursor = some parent ∧
      ((position.builder name line readingName maxDepth).script.phase? parent).any
        Phase.isFilled = false := by
  obtain ⟨below, hbelow⟩ := frames_below line hframes hscript hconditional
  obtain ⟨parent, rest, hparent⟩ := frames_ne_nil line below
  have hup := Stack.parent?_frame name line [] top.settle outer
  have hphase := Stack.phase?_frame name line [top.settle] parent rest
  rw [builder, stack, hframes, Stack.settle]
  rw [hbelow, hparent] at hup ⊢
  exact ⟨Stack.size rest, hup, (congrArg _ hphase).trans (top_not_filled line hparent)⟩

private theorem returns_builder (position : Position) :
    ∀ id ∈ (position.builder name line readingName maxDepth).cursor ::
        (position.builder name line readingName maxDepth).script.ancestors
          (position.builder name line readingName maxDepth).cursor,
      (position.builder name line readingName maxDepth).script.phase? id =
          some .awaitingAlternate →
        ∃ container ∈ (position.builder name line readingName maxDepth).script.ancestors id,
          ((position.builder name line readingName maxDepth).script.node
            container).alternateReturn = true := by
  obtain ⟨top, outer, hframes⟩ := frames_ne_nil line position
  have hreturns := returns_frames line position
  rw [hframes] at hreturns
  have hids := Stack.returns_ids name line [] (top.settle :: outer) hreturns
  have hancestors := Stack.ancestors_frame name line [] top.settle outer
  rw [builder, stack, hframes, Stack.settle]
  simp only [List.nil_append, Stack.ids] at hids hancestors
  simpa only [Stack.builder, List.tail_cons, hancestors] using hids

/-- A builder that stands at a position is consistent. -/
theorem consistent_builder (position : Position) :
    (position.builder name line readingName maxDepth).Consistent := by
  obtain ⟨top, outer, hframes⟩ := frames_ne_nil line position
  have hlength := length_closed_top line hframes
  have hkind := kind_of_frames name line readingName maxDepth hframes
  have hphase := phase?_builder name line readingName maxDepth position
  constructor
  case cursor_lt =>
    rw [builder, stack, hframes, Stack.settle, Stack.builder, Script.nodeCount]
    simp [Stack.script, Stack.size]
    omega
  case cursor_not_leaf =>
    rw [hkind]
    exact isLeaf_top line hframes
  case cursor_not_filled =>
    rw [hphase]
    exact position.phase?_not_filled
  case condition_vacant =>
    intro hawaiting
    rw [← hphase, hawaiting] at hlength
    exact vacant_builder _ _ _ _ hframes (Nat.le_of_eq hlength)
  case body_vacant =>
    intro hawaiting
    rw [← hphase, hawaiting] at hlength
    exact vacant_builder _ _ _ _ hframes (Nat.le_of_eq hlength)
  case alternate_vacant =>
    intro hawaiting
    rw [← hphase, hawaiting] at hlength
    exact vacant_builder _ _ _ _ hframes (Nat.le_of_eq hlength)
  case parent_not_filled =>
    rw [hkind]
    exact parent_builder _ _ _ _ hframes
  case return_marked => exact returns_builder _ _ _ _ position

/-! ## Refusals -/

private theorem blameless_enter (position next : Position) (limit : Option Nat) (nodeLine : Nat) :
    Blameless (position.enter next limit nodeLine) := by
  refine blameless_map _ ?_
  unfold Stack.checkDepth
  split
  · exact blameless_ok _
  · split
    · exact blameless_error rfl
    · exact blameless_ok _

private theorem blameless_enterExpression (position : Position) (limit : Option Nat)
    (nodeLine : Nat) : Blameless (position.enterExpression limit nodeLine) := by
  rw [enterExpression]
  split
  · exact blameless_enter _ _ _ _
  · exact blameless_error rfl
  · exact blameless_ok _

private theorem blameless_openEnclosure (position : Position) (limit : Option Nat)
    (nodeLine : Nat) : Blameless (position.openEnclosure limit nodeLine) := by
  rw [openEnclosure]
  split
  · exact blameless_enter _ _ _ _
  · have henter := blameless_enterExpression position limit nodeLine
    cases hinside : position.enterExpression limit nodeLine with
    | error error => exact blameless_error (henter error hinside)
    | ok inside =>
        simp only [bind, Except.bind]
        split
        · exact blameless_enter _ _ _ _
        · exact blameless_ok _

private theorem blameless_resume (position : Position) (nodeLine : Nat) :
    Blameless (position.resume nodeLine) := by
  refine blameless_map _ ?_
  rw [Level.resume]
  split
  · exact blameless_error rfl
  · split
    · exact blameless_error rfl
    · exact blameless_ok _

private theorem blameless_openAlternate (position : Position) (nodeLine : Nat) :
    Blameless (position.openAlternate nodeLine) := by
  rw [openAlternate]
  split
  · exact blameless_resume _ _
  · split
    · exact blameless_resume _ _
    · exact blameless_error rfl
  · exact blameless_error rfl

private theorem blameless_endStatement (position : Position) (limit : Option Nat) (nodeLine : Nat) :
    Blameless (position.endStatement limit nodeLine) := by
  rw [endStatement]
  split
  · split
    · exact blameless_enter _ _ _ _
    · exact blameless_ok _
  · exact blameless_error rfl
  · exact blameless_ok _
  · exact blameless_error rfl

private theorem blameless_closeBracket (position : Position) (nodeLine : Nat) :
    Blameless (position.closeBracket nodeLine) := by
  rw [closeBracket]
  split
  · split
    · exact blameless_error rfl
    · split <;> exact blameless_error rfl
  · exact blameless_error rfl
  · exact blameless_ok _
  · exact blameless_ok _
  · exact blameless_error rfl

private theorem blameless_closeBlock (position : Position) (nodeLine : Nat) :
    Blameless (position.closeBlock nodeLine) := by
  rw [closeBlock]
  split
  · split
    · exact blameless_error rfl
    · split
      · exact blameless_error rfl
      · exact blameless_ok _
  · exact blameless_error rfl
  · exact blameless_error rfl
  · exact blameless_error rfl

/-- A position refuses what the script has no place for, and nothing else. -/
theorem blameless_step (position : Position) (step : Builder.Step) (limit : Option Nat)
    (nodeLine : Nat) : Blameless (position.step step limit nodeLine) := by
  cases step with
  | value text => exact blameless_map _ (blameless_enterExpression _ _ _)
  | operator text => exact blameless_map _ (blameless_enterExpression _ _ _)
  | openBlock =>
      rw [Position.step, openBlock]
      split
      · exact blameless_enter _ _ _ _
      · exact blameless_error rfl
      · exact blameless_error rfl
  | openEnclosure => exact blameless_openEnclosure _ _ _
  | openConditional =>
      rw [Position.step, openConditional]
      split
      · exact blameless_enter _ _ _ _
      · exact blameless_error rfl
      · exact blameless_error rfl
  | openAlternate => exact blameless_openAlternate _ _
  | close closer =>
      cases closer with
      | statement => exact blameless_endStatement _ _ _
      | bracket => exact blameless_closeBracket _ _
      | block => exact blameless_closeBlock _ _

end Position

end SignalScript
