import SignalScript.Proofs.Builder.Levels

/-!
# A builder and its position

A builder whose table is that of a position takes every step that the position
takes, to the table of the position after it, and refuses every other step with
the error of the position.  So the parent links, phases and marks of a builder are
no more than a way to store a position.
-/

namespace SignalScript

namespace Position

/-- The builder that stands where a position is. -/
def builder (name : String) (line : Nat) (readingName : Bool) (maxDepth : Option Nat)
    (position : Position) : Builder :=
  Stack.builder name line readingName maxDepth (position.stack line)

/-- The container of a level, which depends only on what is around it. -/
theorem frames_level (line : Nat) (around : List (Level × Nat)) :
    ∃ (kind : NodeKind) (containerLine : Nat) (outer : Stack),
      (kind = .script ∧ around = [] ∨ kind = .block ∧ around ≠ []) ∧
        ∀ level : Level, level.frames line around = level.onto kind containerLine outer := by
  cases around with
  | nil => exact ⟨.script, line, [], .inl ⟨rfl, rfl⟩, fun _ => rfl⟩
  | cons outer around =>
      exact ⟨.block, outer.2, outer.1.frames line around, .inr ⟨rfl, by simp⟩, fun _ => rfl⟩

private theorem length_level_frames (line other : Nat) (level : Level)
    (around : List (Level × Nat)) :
    (level.frames line around).length = (level.frames other around).length := by
  induction around generalizing level with
  | nil => simp [Level.frames, Level.onto]
  | cons outer around ih => simp [Level.frames, Level.onto, ih outer.1]

theorem length_exprFrames (inAlternate : Bool) (base : Stack) (anchor : Anchor)
    (around : List (List Expr × Nat)) (done : List Expr) :
    (Focus.exprFrames inAlternate base anchor around done).length =
      base.length + around.length + match anchor with
        | .statement _ => 1
        | .condition _ _ => 2 := by
  induction around generalizing done with
  | nil => cases anchor <;> simp [Focus.exprFrames]
  | cons outer around ih => simp [Focus.exprFrames, ih]; omega

theorem length_frames (line : Nat) (position : Position) :
    (position.frames line).length = position.depth := by
  have hlevel := length_level_frames line 0 position.level position.around
  rw [depth, frames, frames]
  cases position.focus <;> simp [Focus.frames, length_exprFrames, hlevel]

variable (name : String) (line : Nat) (readingName : Bool) (maxDepth : Option Nat)

/-- The frame at the cursor where a phrase can begin. -/
theorem phrase_top (line : Nat) (position : Position) (hfocus : position.focus = .phrase) :
    ∃ (top : Frame) (outer : Stack), position.frames line = top :: outer ∧ top.linked = true ∧
      ((position.level.inSlot = false ∧ position.level.inAlternate = false ∧
          (top.kind = .script ∧ position.around = [] ∨
            top.kind = .block ∧ position.around ≠ [])) ∨
        position.level.inSlot = true ∧ ∃ isAlternate, top.kind = .conditional
          ⟨if position.level.inAlternate then .awaitingAlternate else .awaitingBody,
            isAlternate⟩) := by
  obtain ⟨kind, containerLine, outer, hkind, hframes⟩ := frames_level line position.around
  rw [frames, hfocus, Focus.frames, hframes, Level.onto]
  rcases position.level.chain_cases with
    ⟨hslot, hinAlternate, hchain, _⟩ | ⟨arm, isAlternate, rest, hslot, hinAlternate, hchain⟩
  · exact ⟨position.level.container kind containerLine, outer, by rw [hchain]; rfl, rfl,
      .inl ⟨hslot, hinAlternate, hkind⟩⟩
  · refine ⟨arm.frame false isAlternate, _, by rw [hchain]; rfl, rfl,
      .inr ⟨hslot, isAlternate, ?_⟩⟩
    rw [hinAlternate]
    rcases arm with ⟨condition, _ | body⟩ <;> rfl

/-- The kind of the innermost node among open expressions. -/
def exprsKind (anchor : Anchor) (around : List (List Expr × Nat)) : NodeKind :=
  match anchor, around with
  | .statement _, [] => .statement
  | _, _ => .enclosure

theorem frames_of_focus {position : Position} {focus : Focus} (line : Nat)
    (hfocus : position.focus = focus) :
    position.frames line = focus.frames position.level.inAlternate
      (position.level.frames line position.around) := by
  rw [frames, hfocus]

/-- The frame at the cursor where expressions are open.  Only its branches depend
on the expressions before the cursor. -/
theorem exprs_top (inAlternate : Bool) (base : Stack) (anchor : Anchor)
    (around : List (List Expr × Nat)) :
    ∃ (frameLine : Nat) (outer : Stack), ∀ done : List Expr,
      Focus.exprFrames inAlternate base anchor around done =
        { kind := exprsKind anchor around, line := frameLine, linked := true,
          closed := Expr.branches done } :: outer := by
  rcases around with _ | ⟨⟨left, bracketLine⟩, around⟩
  · cases anchor <;> exact ⟨_, _, fun _ => rfl⟩
  · cases anchor <;> exact ⟨_, _, fun _ => rfl⟩

/-- The kind of the node at the cursor, by what the topmost frame is. -/
theorem kind_of_frames {position : Position} {top : Frame} {outer : Stack}
    (hframes : position.frames line = top :: outer) :
    (position.builder name line readingName maxDepth).kind = top.kind := by
  rw [builder, stack, hframes]
  exact Stack.kind_builder _ _ _ _ _ _

theorem phase?_of_frames {position : Position} {top : Frame} {outer : Stack}
    (hframes : position.frames line = top :: outer) :
    (position.builder name line readingName maxDepth).phase? = top.phase? := by
  rw [builder, stack, hframes]
  exact Stack.phase?_builder _ _ _ _ _ _

/-! ## Opening nodes -/

/-- A new node is a new frame, if it is not too deep. -/
theorem openChild_builder (position next : Position) (kind : NodeKind) (nodeLine : Nat)
    {top : Frame} {outer : Stack} (hframes : position.frames line = top :: outer)
    (hlinked : top.linked = true) (hkind : kind.isLeaf = false)
    (hnext : next.stack line = { kind, line := nodeLine } :: position.frames line) :
    (position.builder name line readingName maxDepth).openChild kind nodeLine =
      (position.enter next maxDepth nodeLine).map
        (·.builder name line readingName maxDepth) := by
  have hlink : top.settle.link = top := by
    rcases top with ⟨_, _, linked, _, _⟩
    simp only at hlinked
    simp [Frame.settle, Frame.link, hlinked]
  have hopen := Stack.openChild_builder name line
    readingName maxDepth top.settle outer kind nodeLine hkind
  have hdepth : position.depth = outer.length + 1 := by
    rw [← length_frames line, hframes, List.length_cons]
  have hbuilder : next.builder name line readingName maxDepth =
      Stack.builder name line readingName maxDepth
        ({ kind, line := nodeLine } :: top.settle.link :: outer) := by
    rw [builder, hnext, hframes, hlink]
  rw [builder, stack, hframes, Stack.settle, hopen, enter, hdepth]
  cases Stack.checkDepth maxDepth (outer.length + 1) nodeLine with
  | error error => rfl
  | ok checked => simp [Except.map, hbuilder]

/-- A slot takes the phrase that it waits for. -/
private theorem requireSlot_phrase {position : Position} {top : Frame} {outer : Stack}
    {isAlternate : Bool} (hframes : position.frames line = top :: outer)
    (hkind : top.kind = .conditional
      ⟨if position.level.inAlternate then .awaitingAlternate else .awaitingBody, isAlternate⟩)
    (nodeLine : Nat) :
    (position.builder name line readingName maxDepth).requireSlot nodeLine = .ok () := by
  have hphase := phase?_of_frames name line readingName maxDepth hframes
  rw [Builder.requireSlot, hphase, Frame.phase?, hkind]
  cases position.level.inAlternate <;> rfl

private theorem requireSlot_head {position : Position} {headLine : Nat}
    (hfocus : position.focus = .head headLine) (nodeLine : Nat) :
    (position.builder name line readingName maxDepth).requireSlot nodeLine =
      .error (.missingCondition nodeLine) := by
  have hphase := phase?_of_frames name line readingName maxDepth (frames_of_focus line hfocus)
  rw [Builder.requireSlot, hphase]
  rfl

theorem kind_head {position : Position} {headLine : Nat}
    (hfocus : position.focus = .head headLine) :
    (position.builder name line readingName maxDepth).kind =
      .conditional (.opened position.level.inAlternate) := by
  have hkind := kind_of_frames name line readingName maxDepth (frames_of_focus line hfocus)
  exact hkind

theorem kind_exprs {position : Position} {anchor : Anchor}
    {around : List (List Expr × Nat)} {done : List Expr}
    (hfocus : position.focus = .exprs anchor around done) :
    (position.builder name line readingName maxDepth).kind = exprsKind anchor around := by
  obtain ⟨frameLine, outer, hframes⟩ := exprs_top position.level.inAlternate
    (position.level.frames line position.around) anchor around
  exact kind_of_frames _ _ _ _ ((frames_of_focus line hfocus).trans (hframes done))

theorem enterExpression_builder (position : Position) (nodeLine : Nat) :
    (position.builder name line readingName maxDepth).enterExpression nodeLine =
      (position.enterExpression maxDepth nodeLine).map
        (·.builder name line readingName maxDepth) := by
  rw [Builder.enterExpression, enterExpression]
  cases hfocus : position.focus with
  | phrase =>
      obtain ⟨top, outer, hframes, hlinked, hcases⟩ := phrase_top line position hfocus
      have hopen := openChild_builder name line readingName maxDepth position
        { position with focus := .exprs (.statement nodeLine) [] [] } .statement nodeLine hframes
        hlinked
        rfl (by simp [stack, frames, hfocus, Focus.frames, Focus.exprFrames, Anchor.frame,
          Expr.branches, Stack.settle, Frame.settle])
      rcases hcases with ⟨_, _, ⟨hkind, _⟩ | ⟨hkind, _⟩⟩ | ⟨_, isAlternate, hkind⟩
      · simp only [kind_of_frames _ _ _ _ hframes, hkind, hopen]
      · simp only [kind_of_frames _ _ _ _ hframes, hkind, hopen]
      · simp only [kind_of_frames _ _ _ _ hframes, hkind,
          requireSlot_phrase _ _ _ _ hframes hkind, hopen]
        rfl
  | head headLine =>
      simp only [kind_head _ _ _ _ hfocus, requireSlot_head _ _ _ _ hfocus]
      rfl
  | exprs anchor around done =>
      simp only [kind_exprs _ _ _ _ hfocus]
      rcases around with _ | _ <;> cases anchor <;> rfl

/-- Where an expression can stand, expressions are open. -/
theorem focus_of_enterExpression {position inside : Position} {limit : Option Nat} {nodeLine : Nat}
    (henter : position.enterExpression limit nodeLine = .ok inside) :
    ∃ anchor around done, inside.focus = .exprs anchor around done := by
  rw [enterExpression] at henter
  cases hfocus : position.focus with
  | phrase =>
      rw [hfocus] at henter
      simp only [enter] at henter
      cases hcheck : Stack.checkDepth limit position.depth nodeLine with
      | error error => simp [hcheck, Except.map] at henter
      | ok checked =>
          simp only [hcheck, Except.map, Except.ok.injEq] at henter
          subst henter
          exact ⟨_, _, _, rfl⟩
  | head headLine => simp [hfocus] at henter
  | exprs anchor around done =>
      rw [hfocus] at henter
      obtain rfl := Except.ok.inj henter
      exact ⟨anchor, around, done, hfocus⟩

/-- An expression is never a conditional. -/
private theorem isConditional_exprs (done : List Expr) :
    (Expr.branches done).getLast?.any Branch.isConditional = false := by
  rcases List.eq_nil_or_concat done with rfl | ⟨front, last, rfl⟩
  · rfl
  · cases last <;> simp [Expr.branches, Expr.branch, Branch.isConditional,
      NodeKind.isConditional]

theorem addExpr_builder {position : Position} {anchor : Anchor} {around : List (List Expr × Nat)}
    {done : List Expr} (hfocus : position.focus = .exprs anchor around done) (leaf : Expr)
    (kind : NodeKind) (nodeLine : Nat) (hleaf : kind.isLeaf = true)
    (hbranch : leaf.branch = .node kind nodeLine []) :
    { position.builder name line readingName maxDepth with
        script := (position.builder name line readingName maxDepth).script.push
          (position.builder name line readingName maxDepth).cursor kind nodeLine } =
      (position.addExpr leaf).builder name line readingName maxDepth := by
  obtain ⟨frameLine, outer, hframes⟩ := exprs_top position.level.inAlternate
    (position.level.frames line position.around) anchor around
  have hbefore : position.stack line =
      { kind := exprsKind anchor around, line := frameLine, closed := Expr.branches done } ::
        outer := by
    rw [stack, frames_of_focus line hfocus, Focus.frames, hframes]
    simp [Stack.settle, Frame.settle, isConditional_exprs]
  have hafter : (position.addExpr leaf).stack line =
      { kind := exprsKind anchor around, line := frameLine,
        closed := Expr.branches (done ++ [leaf]) } :: outer := by
    have hadd : position.addExpr leaf =
        { position with focus := .exprs anchor around (done ++ [leaf]) } := by
      rw [addExpr, hfocus]
    rw [stack, hadd, frames_of_focus line rfl, Focus.frames, hframes]
    rw [Stack.settle, Frame.settle, isConditional_exprs, Bool.and_false]
  have hpush := Stack.push_builder name line readingName
    maxDepth
    { kind := exprsKind anchor around, line := frameLine, closed := Expr.branches done } outer kind
    nodeLine hleaf rfl
  rw [builder, hbefore, hpush, builder, hafter, Expr.branches_append]
  simp [Expr.branches, hbranch, Frame.add, Stack.builder]

/-- A value or operator is a leaf of the expressions it stands in. -/
theorem addLeaf_builder (position : Position) (leaf : Expr) (kind : NodeKind) (nodeLine : Nat)
    (hleaf : kind.isLeaf = true) (hbranch : leaf.branch = .node kind nodeLine []) :
    (position.builder name line readingName maxDepth).addLeaf kind nodeLine =
      (position.addLeaf leaf maxDepth nodeLine).map
        (·.builder name line readingName maxDepth) := by
  rw [Builder.addLeaf, enterExpression_builder, addLeaf]
  cases henter : position.enterExpression maxDepth nodeLine with
  | error error => rfl
  | ok inside =>
      obtain ⟨anchor, around, done, hfocus⟩ := focus_of_enterExpression henter
      have hadd := addExpr_builder name line readingName
        maxDepth hfocus leaf kind nodeLine hleaf hbranch
      simp only [Except.map, bind, Except.bind, hadd]
      rfl

theorem openBlock_builder (position : Position) (nodeLine : Nat) :
    (position.builder name line readingName maxDepth).openBlock nodeLine =
      (position.openBlock maxDepth nodeLine).map (·.builder name line readingName maxDepth) := by
  rw [Builder.openBlock, openBlock]
  cases hfocus : position.focus with
  | phrase =>
      obtain ⟨top, outer, hframes, hlinked, hcases⟩ := phrase_top line position hfocus
      have hopen := openChild_builder name line readingName maxDepth position
        { level := {}, around := (position.level, nodeLine) :: position.around } .block nodeLine
        hframes hlinked rfl (by rw [stack, frames_of_focus line hfocus]; rfl)
      rcases hcases with ⟨_, _, ⟨hkind, _⟩ | ⟨hkind, _⟩⟩ | ⟨_, isAlternate, hkind⟩
      · simp only [kind_of_frames _ _ _ _ hframes, hkind, hopen]
      · simp only [kind_of_frames _ _ _ _ hframes, hkind, hopen]
      · simp only [kind_of_frames _ _ _ _ hframes, hkind,
          requireSlot_phrase _ _ _ _ hframes hkind, hopen]
        rfl
  | head headLine =>
      simp only [kind_head _ _ _ _ hfocus, requireSlot_head _ _ _ _ hfocus]
      rfl
  | exprs anchor around done =>
      simp only [kind_exprs _ _ _ _ hfocus]
      rcases around with _ | _ <;> cases anchor <;> rfl

theorem openConditional_builder (position : Position) (nodeLine : Nat) :
    (position.builder name line readingName maxDepth).openConditional nodeLine =
      (position.openConditional maxDepth nodeLine).map
        (·.builder name line readingName maxDepth) := by
  rw [Builder.openConditional, openConditional]
  cases hfocus : position.focus with
  | phrase =>
      obtain ⟨top, outer, hframes, hlinked, hcases⟩ := phrase_top line position hfocus
      have hopen := openChild_builder name line readingName maxDepth position
        { position with focus := .head nodeLine }
        (.conditional (.opened position.level.inAlternate)) nodeLine
        hframes hlinked rfl (by rw [stack, frames_of_focus line hfocus]; rfl)
      rcases hcases with ⟨_, hinAlternate, ⟨hkind, _⟩ | ⟨hkind, _⟩⟩ | ⟨_, isAlternate, hkind⟩
      · rw [hinAlternate] at hopen
        simp only [kind_of_frames _ _ _ _ hframes, hkind, hopen]
      · rw [hinAlternate] at hopen
        simp only [kind_of_frames _ _ _ _ hframes, hkind, hopen]
      · have hphase : ((if position.level.inAlternate then Phase.awaitingAlternate
            else Phase.awaitingBody) == Phase.awaitingAlternate) =
              position.level.inAlternate := by
          cases position.level.inAlternate <;> rfl
        simp only [kind_of_frames _ _ _ _ hframes, hkind,
          requireSlot_phrase _ _ _ _ hframes hkind, hphase, hopen]
        rfl
  | head headLine =>
      simp only [kind_head _ _ _ _ hfocus, requireSlot_head _ _ _ _ hfocus]
      rfl
  | exprs anchor around done =>
      simp only [kind_exprs _ _ _ _ hfocus]
      rcases around with _ | _ <;> cases anchor <;> rfl

/-- Brackets among expressions hold expressions of their own. -/
private theorem openInner_builder {position : Position} {anchor : Anchor}
    {around : List (List Expr × Nat)} {done : List Expr}
    (hfocus : position.focus = .exprs anchor around done) (nodeLine : Nat) :
    (position.builder name line readingName maxDepth).openChild .enclosure nodeLine =
      (position.enter { position with focus := .exprs anchor ((done, nodeLine) :: around) [] }
        maxDepth nodeLine).map (·.builder name line readingName maxDepth) := by
  obtain ⟨frameLine, outer, hframes⟩ := exprs_top position.level.inAlternate
    (position.level.frames line position.around) anchor around
  exact openChild_builder _ _ _ _ _ _ _ _ ((frames_of_focus line hfocus).trans (hframes done))
    rfl rfl (by rw [stack, frames_of_focus line hfocus]; rfl)

/-- What the conditional at the cursor waits for, if the cursor is at one. -/
def phase? (position : Position) : Option Phase :=
  match position.focus with
  | .phrase =>
    if position.level.inSlot then
      if position.level.inAlternate then some .awaitingAlternate else some .awaitingBody
    else none
  | .head _ => some .awaitingCondition
  | .exprs _ _ _ => none

theorem phase?_builder (position : Position) :
    (position.builder name line readingName maxDepth).phase? = position.phase? := by
  rw [phase?]
  cases hfocus : position.focus with
  | phrase =>
      obtain ⟨top, outer, hframes, _, hcases⟩ := phrase_top line position hfocus
      rw [phase?_of_frames name line readingName maxDepth hframes, Frame.phase?]
      rcases hcases with ⟨hslot, _, ⟨hkind, _⟩ | ⟨hkind, _⟩⟩ | ⟨hslot, isAlternate, hkind⟩
      · rw [hkind, hslot]
        rfl
      · rw [hkind, hslot]
        rfl
      · rw [hkind, hslot]
        cases position.level.inAlternate <;> rfl
  | head headLine => exact phase?_of_frames _ _ _ _ (frames_of_focus line hfocus)
  | exprs anchor around done =>
      obtain ⟨frameLine, outer, hframes⟩ := exprs_top position.level.inAlternate
        (position.level.frames line position.around) anchor around
      rw [phase?_of_frames _ _ _ _ ((frames_of_focus line hfocus).trans (hframes done))]
      rcases around with _ | _ <;> cases anchor <;> rfl

/-- What a bracket does where no conditional waits for its condition. -/
private theorem openEnclosure_cases {position : Position} {limit : Option Nat} {nodeLine : Nat}
    (hphase : position.phase? ≠ some .awaitingCondition) :
    (∃ error, position.enterExpression limit nodeLine = .error error ∧
      position.openEnclosure limit nodeLine = .error error) ∨
    ∃ inside anchor around done, position.enterExpression limit nodeLine = .ok inside ∧
      inside.focus = .exprs anchor around done ∧
      position.openEnclosure limit nodeLine =
        inside.enter { inside with focus := .exprs anchor ((done, nodeLine) :: around) [] }
          limit nodeLine := by
  have hhead : ∀ headLine, position.focus ≠ .head headLine := fun headLine hfocus =>
    hphase (by rw [phase?, hfocus])
  cases henter : position.enterExpression limit nodeLine with
  | error error =>
      refine .inl ⟨error, rfl, ?_⟩
      cases hfocus : position.focus with
      | head headLine => exact absurd hfocus (hhead headLine)
      | phrase | exprs => simp only [openEnclosure, hfocus, henter, bind, Except.bind]
  | ok inside =>
      obtain ⟨anchor, around, done, hinside⟩ := focus_of_enterExpression henter
      refine .inr ⟨inside, anchor, around, done, rfl, hinside, ?_⟩
      cases hfocus : position.focus with
      | head headLine => exact absurd hfocus (hhead headLine)
      | phrase | exprs => simp only [openEnclosure, hfocus, henter, hinside, bind, Except.bind]

theorem openEnclosure_builder (position : Position) (nodeLine : Nat) :
    (position.builder name line readingName maxDepth).openEnclosure nodeLine =
      (position.openEnclosure maxDepth nodeLine).map
        (·.builder name line readingName maxDepth) := by
  by_cases hphase : position.phase? = some .awaitingCondition
  · cases hfocus : position.focus with
    | head headLine =>
        have hopen := openChild_builder name line readingName maxDepth position
          { position with focus := .exprs (.condition headLine nodeLine) [] [] } .enclosure
          nodeLine (frames_of_focus line hfocus) rfl rfl
          (by rw [stack, frames_of_focus line hfocus]; rfl)
        rw [Builder.openEnclosure, phase?_builder, if_pos hphase, hopen, openEnclosure, hfocus]
    | phrase =>
        simp only [phase?, hfocus] at hphase
        split at hphase
        · split at hphase <;> simp at hphase
        · simp at hphase
    | exprs anchor around done => simp [phase?, hfocus] at hphase
  · rw [Builder.openEnclosure, phase?_builder, if_neg hphase, enterExpression_builder]
    obtain ⟨error, henter, hopen⟩ | ⟨inside, anchor, around, done, henter, hfocus, hopen⟩ :=
      openEnclosure_cases hphase
    · rw [henter, hopen]
      rfl
    · rw [henter, hopen]
      exact openInner_builder _ _ _ _ hfocus nodeLine

/-! ## Completing nodes -/

/-- The innermost node among open expressions is not linked to its last child. -/
private theorem settle_exprs (anchor : Anchor) (around : List (List Expr × Nat)) (frameLine : Nat)
    (done : List Expr) (outer : Stack) :
    Stack.settle ({ kind := exprsKind anchor around, line := frameLine, linked := true,
                    closed := Expr.branches done } :: outer) =
      { kind := exprsKind anchor around, line := frameLine, closed := Expr.branches done } ::
        outer := by
  simp [Stack.settle, Frame.settle, isConditional_exprs]

private theorem frames_addPhrase (position : Position) (phrase : Phrase) {kind : NodeKind}
    {containerLine : Nat} {outer : Stack}
    (hframes : ∀ level : Level, level.frames line position.around =
      level.onto kind containerLine outer) :
    (position.addPhrase phrase).stack line =
      Stack.settle ((position.level.add phrase).onto kind containerLine outer) := by
  rw [stack, frames_of_focus line rfl]
  exact congrArg Stack.settle (hframes _)

private theorem isConditional_container {kind : NodeKind} {around : List (Level × Nat)}
    (hkind : kind = .script ∧ around = [] ∨ kind = .block ∧ around ≠ []) :
    kind.isConditional = false := by
  rcases hkind with ⟨rfl, _⟩ | ⟨rfl, _⟩ <;> rfl

/-- A frame on a level that holds a whole phrase completes the level. -/
private theorem complete_addPhrase (position : Position) (phrase : Phrase) (top : Frame)
    (nodeLine : Nat) (hmarked : top.marked = false)
    (hbranch : top.branch = phrase.branch position.level.inAlternate)
    (hphrase : Branch.isConditional top.branch = false) :
    (Stack.builder name line readingName maxDepth
        (top :: position.level.frames line position.around)).complete nodeLine =
      .ok ((position.addPhrase phrase).builder name line readingName maxDepth) := by
  obtain ⟨kind, containerLine, outer, hkind, hframes⟩ := frames_level line position.around
  have hcomplete := position.level.complete_phrase name line
    readingName maxDepth phrase top kind containerLine outer
    nodeLine (isConditional_container hkind) hmarked hbranch hphrase
  rw [hframes, hcomplete, builder, frames_addPhrase line position phrase hframes]

theorem complete_statement {position : Position} {first : Nat} {done : List Expr}
    (hfocus : position.focus = .exprs (.statement first) [] done) (nodeLine : Nat) :
    (position.builder name line readingName maxDepth).complete nodeLine =
      .ok ((position.addPhrase (.statement first done)).builder name line readingName
        maxDepth) := by
  have hstack : position.stack line =
      { kind := .statement, line := first, closed := Expr.branches done } ::
        position.level.frames line position.around := by
    rw [stack, frames_of_focus line hfocus]
    exact settle_exprs (.statement first) [] first done _
  rw [builder, hstack]
  exact complete_addPhrase _ _ _ _ position (.statement first done) _ nodeLine rfl rfl rfl

theorem endStatement_builder (position : Position) (nodeLine : Nat) :
    (position.builder name line readingName maxDepth).endStatement nodeLine =
      (position.endStatement maxDepth nodeLine).map
        (·.builder name line readingName maxDepth) := by
  rw [Builder.endStatement, endStatement]
  cases hfocus : position.focus with
  | phrase =>
      obtain ⟨top, outer, hframes, hlinked, hcases⟩ := phrase_top line position hfocus
      rcases hcases with ⟨hslot, _, ⟨hkind, _⟩ | ⟨hkind, _⟩⟩ | ⟨hslot, isAlternate, hkind⟩
      · simp only [kind_of_frames _ _ _ _ hframes, hkind, hslot]
        rfl
      · simp only [kind_of_frames _ _ _ _ hframes, hkind, hslot]
        rfl
      · -- The empty statement is opened and completed at once.
        let inside : Position := { position with focus := .exprs (.statement nodeLine) [] [] }
        have hopen := openChild_builder name line readingName maxDepth position inside .statement
          nodeLine hframes hlinked rfl (by
            rw [stack, frames_of_focus line hfocus]
            exact settle_exprs (.statement nodeLine) [] nodeLine [] _)
        have hinside : inside.focus = .exprs (.statement nodeLine) [] [] := rfl
        have hcomplete := complete_statement name line readingName maxDepth hinside nodeLine
        simp only [kind_of_frames _ _ _ _ hframes, hkind,
          requireSlot_phrase _ _ _ _ hframes hkind, hopen, hslot,
          bind, Except.bind, enter]
        cases Stack.checkDepth maxDepth position.depth nodeLine with
        | error error => rfl
        | ok checked => exact hcomplete
  | head headLine =>
      simp only [kind_head _ _ _ _ hfocus, requireSlot_head _ _ _ _ hfocus]
      rfl
  | exprs anchor around done =>
      simp only [kind_exprs _ _ _ _ hfocus]
      rcases around with _ | ⟨outer, around⟩ <;> cases anchor with
      | statement first =>
          first
          | exact complete_statement _ _ _ _ hfocus nodeLine
          | rfl
      | condition headLine bracketLine => rfl

/-- A closing bracket ends the innermost brackets among expressions. -/
private theorem complete_enclosure {position : Position} {anchor : Anchor} {left : List Expr}
    {bracketLine : Nat} {around : List (List Expr × Nat)} {done : List Expr}
    (hfocus : position.focus = .exprs anchor ((left, bracketLine) :: around) done)
    (nodeLine : Nat) :
    (position.builder name line readingName maxDepth).complete nodeLine =
      .ok (({ position with
              focus := .exprs anchor around (left ++ [.enclosure bracketLine done]) } :
            Position).builder name line readingName maxDepth) := by
  obtain ⟨frameLine, outer, hframes⟩ := exprs_top position.level.inAlternate
    (position.level.frames line position.around) anchor around
  have hbefore : position.stack line =
      { kind := .enclosure, line := bracketLine, closed := Expr.branches done } ::
        { kind := exprsKind anchor around, line := frameLine, linked := true,
          closed := Expr.branches left } :: outer := by
    rw [stack, frames_of_focus line hfocus, Focus.frames, Focus.exprFrames, hframes]
    simp [Stack.settle, Frame.settle, isConditional_exprs]
  have hafter : ({ position with
      focus := .exprs anchor around (left ++ [.enclosure bracketLine done]) } : Position).stack
        line =
      { kind := exprsKind anchor around, line := frameLine,
        closed := Expr.branches (left ++ [.enclosure bracketLine done]) } :: outer := by
    rw [stack, frames_of_focus line rfl, Focus.frames, hframes, settle_exprs]
  have hcomplete := Stack.complete_inContainer name line
    readingName maxDepth
    { kind := .enclosure, line := bracketLine, closed := Expr.branches done }
    { kind := exprsKind anchor around, line := frameLine, linked := true,
      closed := Expr.branches left } outer nodeLine
    (by rcases around with _ | _ <;> cases anchor <;> rfl) rfl
  rw [builder, hbefore, hcomplete, builder, hafter, Expr.branches_append]
  rfl

/-- The conditional at the cursor waits for its body once its condition is
complete. -/
private theorem complete_condition {position : Position} {headLine bracketLine : Nat}
    {done : List Expr} (hfocus : position.focus = .exprs (.condition headLine bracketLine) [] done)
    (nodeLine : Nat) :
    (position.builder name line readingName maxDepth).complete nodeLine =
      .ok (({ position with
              level := { position.level with
                bodies := position.level.bodies ++ [⟨headLine, bracketLine, done⟩] }
              focus := .phrase } : Position).builder name line readingName maxDepth) := by
  obtain ⟨kind, containerLine, outer, _, hframes⟩ := frames_level line position.around
  let arm : Arm := ⟨⟨headLine, bracketLine, done⟩, none⟩
  let opened : Level :=
    { position.level with bodies := position.level.bodies ++ [⟨headLine, bracketLine, done⟩] }
  have hbefore : position.stack line =
      { kind := .enclosure, line := bracketLine, closed := Expr.branches done } ::
        Focus.headFrame position.level.inAlternate headLine ::
        position.level.frames line position.around := by
    rw [stack, frames_of_focus line hfocus]
    exact settle_exprs (.condition headLine bracketLine) [] bracketLine done _
  have hslots : opened.slots = position.level.slots ++ [arm] := by
    simp [opened, arm, Level.slots]
  have hchain : opened.chain =
      arm.frame false position.level.inAlternate :: position.level.chain := by
    rw [Level.chain, hslots, Arm.chain_append, Level.inAlternate_eq, Arm.endsInAlternate_append]
    rfl
  have hafter : ({ position with level := opened, focus := .phrase } : Position).stack line =
      (arm.frame false position.level.inAlternate).settle ::
        position.level.frames line position.around := by
    rw [stack, frames_of_focus line rfl, Focus.frames, hframes, hframes, Level.onto, hchain]
    rfl
  have hcomplete := Stack.complete_inCondition name line
    readingName maxDepth
    { kind := .enclosure, line := bracketLine, closed := Expr.branches done }
    (Focus.headFrame position.level.inAlternate headLine)
    (position.level.frames line position.around) nodeLine rfl rfl
  rw [builder, hbefore, hcomplete, builder, hafter]
  rfl

theorem closeBracket_builder (position : Position) (nodeLine : Nat) :
    (position.builder name line readingName maxDepth).closeNested .bracket nodeLine =
      (position.closeBracket nodeLine).map (·.builder name line readingName maxDepth) := by
  rw [Builder.closeNested, closeBracket]
  cases hfocus : position.focus with
  | phrase =>
      obtain ⟨top, outer, hframes, hlinked, hcases⟩ := phrase_top line position hfocus
      rcases hcases with ⟨hslot, _, ⟨hkind, haround⟩ | ⟨hkind, haround⟩⟩ |
        ⟨hslot, isAlternate, hkind⟩
      · simp only [kind_of_frames _ _ _ _ hframes, hkind, hslot, haround]
        rfl
      · have hsome : position.around.isEmpty = false := by simpa using haround
        simp only [kind_of_frames _ _ _ _ hframes, hkind, hslot, hsome]
        rfl
      · simp only [kind_of_frames _ _ _ _ hframes, hkind, hslot]
        cases position.level.inAlternate <;> rfl
  | head headLine =>
      simp only [kind_head _ _ _ _ hfocus]
      rfl
  | exprs anchor around done =>
      simp only [kind_exprs _ _ _ _ hfocus]
      rcases around with _ | ⟨⟨left, bracketLine⟩, around⟩
      · cases anchor with
        | statement first => rfl
        | condition headLine bracketLine => exact complete_condition _ _ _ _ hfocus nodeLine
      · have hkind : exprsKind anchor ((left, bracketLine) :: around) = .enclosure := by
          cases anchor <;> rfl
        rw [hkind]
        exact complete_enclosure _ _ _ _ hfocus nodeLine

/-- A closing brace makes the phrases of a level a block on the level around. -/
private theorem complete_block {position : Position} {outer : Level} {blockLine : Nat}
    {around : List (Level × Nat)} (hfocus : position.focus = .phrase)
    (hslot : position.level.inSlot = false)
    (haround : position.around = (outer, blockLine) :: around) (nodeLine : Nat) :
    (position.builder name line readingName maxDepth).complete nodeLine =
      .ok (({ level := outer.add (.block blockLine position.level.done), around } :
            Position).builder name line readingName maxDepth) := by
  have hlevel : position.level.chain = [] ∧ position.level.resumed? = none := by
    rcases position.level.chain_cases with ⟨_, _, hchain, hresumed, _⟩ | ⟨_, _, _, hslot', _⟩
    · exact ⟨hchain, hresumed⟩
    · simp [hslot] at hslot'
  have hstack : position.stack line =
      (position.level.container .block blockLine).settle :: outer.frames line around := by
    rw [stack, frames_of_focus line hfocus, Focus.frames, haround, Level.frames, Level.onto,
      hlevel.1]
    rfl
  have hcomplete := complete_addPhrase name line
    readingName maxDepth { level := outer, around }
    (.block blockLine position.level.done) (position.level.container .block blockLine).settle
    nodeLine (by simp [Frame.settle, Level.container, hlevel.2]) rfl rfl
  rw [builder, hstack]
  exact hcomplete

theorem closeBlock_builder (position : Position) (nodeLine : Nat) :
    (position.builder name line readingName maxDepth).closeNested .block nodeLine =
      (position.closeBlock nodeLine).map (·.builder name line readingName maxDepth) := by
  rw [Builder.closeNested, closeBlock]
  cases hfocus : position.focus with
  | phrase =>
      obtain ⟨top, frames, hframes, hlinked, hcases⟩ := phrase_top line position hfocus
      rcases hcases with ⟨hslot, _, ⟨hkind, haround⟩ | ⟨hkind, haround⟩⟩ |
        ⟨hslot, isAlternate, hkind⟩
      · simp only [kind_of_frames _ _ _ _ hframes, hkind, hslot, haround]
        rfl
      · obtain ⟨⟨outer, blockLine⟩, around, hcons⟩ := List.exists_cons_of_ne_nil haround
        simp only [kind_of_frames _ _ _ _ hframes, hkind, hslot, hcons]
        exact complete_block _ _ _ _ hfocus hslot hcons nodeLine
      · simp only [kind_of_frames _ _ _ _ hframes, hkind, hslot]
        cases position.level.inAlternate <;> rfl
  | head headLine =>
      simp only [kind_head _ _ _ _ hfocus]
      rfl
  | exprs anchor around done =>
      simp only [kind_exprs _ _ _ _ hfocus]
      rcases around with _ | _ <;> cases anchor <;> rfl

/-! ## Alternates -/

theorem resume_phrase {position : Position} (hfocus : position.focus = .phrase)
    (nodeLine : Nat) :
    (position.builder name line readingName maxDepth).openAlternate nodeLine =
      (position.resume nodeLine).map (·.builder name line readingName maxDepth) := by
  obtain ⟨kind, containerLine, outer, hkind, hframes⟩ := frames_level line position.around
  have hresume := position.level.resume_builder name line
    readingName maxDepth kind containerLine outer nodeLine
    (hkind.imp And.left And.left)
  have hstack : position.stack line =
      Stack.settle (position.level.onto kind containerLine outer) := by
    rw [stack, frames_of_focus line hfocus, Focus.frames, hframes]
  rw [builder, hstack, hresume, resume]
  cases position.level.resume nodeLine with
  | error error => rfl
  | ok level =>
      simp only [Except.map, builder, stack]
      rw [frames_of_focus line rfl, Focus.frames, hframes]

/-- An `ELSE` reads the same before and after the statement it ends. -/
theorem openAlternate_of_endOpenBody {before after : Builder} {nodeLine : Nat}
    (hbefore : before.endOpenBody nodeLine = .ok after)
    (hafter : after.endOpenBody nodeLine = .ok after) :
    before.openAlternate nodeLine = after.openAlternate nodeLine := by
  rw [Builder.openAlternate, Builder.openAlternate, hbefore, hafter]

/-- An `ELSE` is refused where there is neither a container nor a statement in a
slot. -/
theorem openAlternate_elsewhere {builder : Builder} {nodeLine : Nat}
    (hend : builder.endOpenBody nodeLine = .ok builder) (hscript : builder.kind ≠ .script)
    (hblock : builder.kind ≠ .block) :
    builder.openAlternate nodeLine = .error (.elseWithoutIf nodeLine) := by
  have htarget : builder.alternateTarget? = none := by
    rw [Builder.alternateTarget?]
    split
    · contradiction
    · contradiction
    · rfl
  simp only [Builder.openAlternate, hend, bind, Except.bind, htarget]

theorem endOpenBody_of_kind {builder : Builder} (nodeLine : Nat)
    (hkind : builder.kind ≠ .statement) : builder.endOpenBody nodeLine = .ok builder := by
  rw [Builder.endOpenBody, if_neg (fun hboth => hkind hboth.1)]

theorem kind_phrase_ne_statement {position : Position}
    (hfocus : position.focus = .phrase) :
    (position.builder name line readingName maxDepth).kind ≠ .statement := by
  obtain ⟨top, outer, hframes, _, hcases⟩ := phrase_top line position hfocus
  rw [kind_of_frames _ _ _ _ hframes]
  rcases hcases with ⟨_, _, ⟨hkind, _⟩ | ⟨hkind, _⟩⟩ | ⟨_, isAlternate, hkind⟩
  · simp [hkind]
  · simp [hkind]
  · simp [hkind]

/-- A statement stands in a slot if its parent is a conditional. -/
theorem endOpenBody_statement {position : Position} {first : Nat} {done : List Expr}
    (hfocus : position.focus = .exprs (.statement first) [] done) (nodeLine : Nat) :
    (position.builder name line readingName maxDepth).endOpenBody nodeLine =
      if position.level.inSlot then
        .ok ((position.addPhrase (.statement first done)).builder name line readingName maxDepth)
      else
        .ok (position.builder name line readingName maxDepth) := by
  obtain ⟨top, outer, hframes, _, hcases⟩ := phrase_top line
    { position with focus := .phrase } rfl
  have hstack : position.stack line =
      { kind := .statement, line := first, closed := Expr.branches done } :: top :: outer := by
    rw [stack, frames_of_focus line hfocus, ← hframes]
    exact settle_exprs (.statement first) [] first done _
  have hparent : ((position.builder name line readingName maxDepth).script.parent?
      (position.builder name line readingName maxDepth).cursor).any
        (position.builder name line readingName maxDepth).script.isConditional =
      top.kind.isConditional := by
    have hup := Stack.parent?_frame name line []
      { kind := .statement, line := first, closed := Expr.branches done } (top :: outer)
    have hconditional := Stack.isConditional_frame name line
      [{ kind := .statement, line := first, closed := Expr.branches done }] top outer
    rw [builder, hstack]
    exact (congrArg (Option.any _) hup).trans hconditional
  have hslot : top.kind.isConditional = position.level.inSlot := by
    rcases hcases with ⟨hslot, _, ⟨hkind, _⟩ | ⟨hkind, _⟩⟩ | ⟨hslot, isAlternate, hkind⟩
    · rw [hkind]
      exact hslot.symm
    · rw [hkind]
      exact hslot.symm
    · rw [hkind]
      exact hslot.symm
  have hcomplete := complete_statement name line readingName maxDepth hfocus nodeLine
  rw [Builder.endOpenBody, hparent, hslot, kind_exprs _ _ _ _ hfocus, hcomplete]
  simp [exprsKind]

theorem openAlternate_builder (position : Position) (nodeLine : Nat) :
    (position.builder name line readingName maxDepth).openAlternate nodeLine =
      (position.openAlternate nodeLine).map (·.builder name line readingName maxDepth) := by
  rw [openAlternate]
  cases hfocus : position.focus with
  | phrase => exact resume_phrase _ _ _ _ hfocus nodeLine
  | head headLine =>
      have hkind := kind_head name line readingName maxDepth hfocus
      exact openAlternate_elsewhere (endOpenBody_of_kind nodeLine (by simp [hkind]))
        (by simp [hkind]) (by simp [hkind])
  | exprs anchor around done =>
      have hkind := kind_exprs name line readingName maxDepth hfocus
      by_cases hstatement : ∃ first, anchor = .statement first ∧ around = []
      · obtain ⟨first, rfl, rfl⟩ := hstatement
        have hend := endOpenBody_statement name line
          readingName maxDepth hfocus nodeLine
        cases hslot : position.level.inSlot with
        | true =>
            rw [hslot, if_pos rfl] at hend
            let after := position.addPhrase (.statement first done)
            have hafter : after.focus = .phrase := rfl
            rw [openAlternate_of_endOpenBody hend
              (endOpenBody_of_kind nodeLine (kind_phrase_ne_statement _ _ _ _ hafter))]
            exact resume_phrase _ _ _ _ hafter nodeLine
        | false =>
            rw [hslot, if_neg (by simp)] at hend
            exact openAlternate_elsewhere hend (by simp [hkind, exprsKind])
              (by simp [hkind, exprsKind])
      · have henclosure : exprsKind anchor around = .enclosure := by
          rcases around with _ | _ <;> cases anchor <;> simp_all [exprsKind]
        rw [henclosure] at hkind
        have hend : (position.builder name line readingName maxDepth).endOpenBody nodeLine =
            .ok (position.builder name line readingName maxDepth) :=
          endOpenBody_of_kind nodeLine (by simp [hkind])
        have helse := openAlternate_elsewhere hend (by simp [hkind]) (by simp [hkind])
        rw [helse]
        rcases around with _ | _ <;> cases anchor <;> simp_all [exprsKind] <;> rfl

/-! ## All steps -/

/-- A builder takes the steps of its position. -/
theorem apply_builder (position : Position) (step : Builder.Step) (nodeLine : Nat) :
    (position.builder name line readingName maxDepth).apply step nodeLine =
      (position.step step maxDepth nodeLine).map
        (·.builder name line readingName maxDepth) := by
  cases step with
  | value text => exact addLeaf_builder _ _ _ _ position (.value nodeLine text) _ nodeLine rfl rfl
  | operator text =>
      exact addLeaf_builder _ _ _ _ position (.operator nodeLine text) _ nodeLine rfl rfl
  | openBlock => exact openBlock_builder _ _ _ _ position nodeLine
  | openEnclosure => exact openEnclosure_builder _ _ _ _ position nodeLine
  | openConditional => exact openConditional_builder _ _ _ _ position nodeLine
  | openAlternate => exact openAlternate_builder _ _ _ _ position nodeLine
  | close closer =>
      cases closer with
      | statement => exact endStatement_builder _ _ _ _ position nodeLine
      | bracket => exact closeBracket_builder _ _ _ _ position nodeLine
      | block => exact closeBlock_builder _ _ _ _ position nodeLine

/-- So a builder that takes a step stands where its position has got to. -/
theorem exists_step_of_apply {position : Position} {step : Builder.Step} {nodeLine : Nat}
    {next : Builder}
    (happly : (position.builder name line readingName maxDepth).apply step nodeLine = .ok next) :
    ∃ after, position.step step maxDepth nodeLine = .ok after ∧
      next = after.builder name line readingName maxDepth := by
  rw [apply_builder] at happly
  cases hstep : position.step step maxDepth nodeLine with
  | error error => simp [hstep, Except.map] at happly
  | ok after =>
      rw [hstep] at happly
      exact ⟨after, rfl, (Except.ok.inj happly).symm⟩

/-- A builder that has read no more than the name of its script stands at the
beginning. -/
theorem builder_start (name : String) (line : Nat) (readingName : Bool)
    (maxDepth : Option Nat) :
    ({ } : Position).builder name line readingName maxDepth =
      { script := { Script.opened line with name }, readingName, maxDepth } := rfl

end Position

end SignalScript
