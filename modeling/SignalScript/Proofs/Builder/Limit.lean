import SignalScript.Proofs.Builder.Growth
import SignalScript.Proofs.Parser.Safety

/-!
# Steps under a limit of depth

A limit changes nothing about a step but one thing: the step is refused if it opens a
node that is too deep.  All that is open is within the limit before, so the first such
node is just one level too deep.
-/

namespace SignalScript

namespace Builder

/-- The builder under a limit. -/
def withLimit (builder : Builder) (limit : Nat) : Builder :=
  { builder with maxDepth := some limit }

/-- What the result of a step on a line is under a limit. -/
def cutAt (limit line : Nat) (builder : Builder) :
    Except ParseError Builder → Except ParseError Builder
  | .error error => .error error
  | .ok next =>
    if builder.script.OpensBeyond limit next.script then
      .error (.nestingTooDeep (limit + 1) line)
    else
      .ok (next.withLimit limit)

variable {limit : Nat} {builder : Builder} (line : Nat)

@[simp]
theorem cutAt_error (error : ParseError) :
    cutAt limit line builder (.error error) = .error error := rfl

theorem cutAt_ok_of_le {next : Builder}
    (hcount : next.script.nodeCount ≤ builder.script.nodeCount) :
    cutAt limit line builder (.ok next) = .ok (next.withLimit limit) := by
  rw [cutAt, if_neg (Script.not_opensBeyond_of_le hcount)]

/-- A step that opens nothing and does not look at the limit. -/
theorem eq_cutAt_of_map {result limited : Except ParseError Builder}
    (hlimited : limited = result.map (·.withLimit limit))
    (hcount : ∀ next, result = .ok next → next.script.nodeCount = builder.script.nodeCount) :
    limited = cutAt limit line builder result := by
  rw [hlimited]
  cases result with
  | error error => rfl
  | ok next => exact (cutAt_ok_of_le line (Nat.le_of_eq (hcount next rfl))).symm

/-- Two steps in a row, the second of which never fails by itself. -/
theorem cutAt_bind {first : Except ParseError Builder}
    {second limited : Builder → Except ParseError Builder} (hfirst : builder.Grows first)
    (hsecond : ∀ middle : Builder, middle.Grows (second middle))
    (hok : ∀ middle, first = .ok middle → ∃ next, second middle = .ok next)
    (hlimited : ∀ middle, first = .ok middle →
      ¬ builder.script.OpensBeyond limit middle.script →
        limited (middle.withLimit limit) = cutAt limit line middle (second middle)) :
    (cutAt limit line builder first >>= limited) =
      cutAt limit line builder (first >>= second) := by
  cases first with
  | error error => rfl
  | ok middle =>
      obtain ⟨next, hnext⟩ := hok middle rfl
      have hopens : builder.script.OpensBeyond limit next.script ↔
          builder.script.OpensBeyond limit middle.script ∨
            middle.script.OpensBeyond limit next.script :=
        Script.opensBeyond_iff_or (hfirst middle rfl).nodes (hsecond middle next hnext).nodes
      have hbind : ((.ok middle : Except ParseError Builder) >>= second) = .ok next := hnext
      rw [hbind, cutAt, cutAt]
      by_cases hmiddle : builder.script.OpensBeyond limit middle.script
      · rw [if_pos hmiddle, if_pos (hopens.mpr (.inl hmiddle))]
        rfl
      · have hsame : builder.script.OpensBeyond limit next.script ↔
            middle.script.OpensBeyond limit next.script :=
          hopens.trans (or_iff_right hmiddle)
        have hthen := hlimited middle rfl hmiddle
        rw [hnext, cutAt] at hthen
        rw [if_neg hmiddle]
        simp only [hsame]
        exact hthen

/-! ## Opening nodes -/

/-- Whether the node at the cursor is one of the table, and within a limit. -/
structure Shallow (limit : Nat) (builder : Builder) : Prop where
  unlimited : builder.maxDepth = none
  cursor_lt : builder.cursor < builder.script.nodeCount
  depth_le : builder.script.depth builder.cursor ≤ limit

theorem openChild_unlimited (hunlimited : builder.maxDepth = none) (kind : NodeKind) :
    builder.openChild kind line = .ok { builder with
      script := builder.script.push builder.cursor kind line
      cursor := builder.script.nextId } := by
  simp only [openChild, hunlimited]

theorem openChild_withLimit (hshallow : builder.Shallow limit) (kind : NodeKind)
    (hkind : kind.isLeaf = false) :
    (builder.withLimit limit).openChild kind line =
      cutAt limit line builder (builder.openChild kind line) := by
  have hopens : builder.script.OpensBeyond limit
      (builder.script.push builder.cursor kind line) ↔ _ :=
    Script.opensBeyond_push_iff hshallow.cursor_lt kind line
  have hdepth := Script.depth_push_nextId kind line hshallow.cursor_lt
  have hat := hshallow.depth_le
  rw [openChild_unlimited line hshallow.unlimited, cutAt]
  simp only [openChild, withLimit, hdepth, hopens, hkind, true_and]
  by_cases hdeep : limit < builder.script.depth builder.cursor + 1
  · have hexact : builder.script.depth builder.cursor + 1 = limit + 1 := by omega
    rw [if_pos hdeep, if_pos hdeep, hexact]
  · rw [if_neg hdeep, if_neg hdeep]

/-- The node that has just been opened is within the limit if nothing was opened beyond
it. -/
theorem Shallow.openChild (hshallow : builder.Shallow limit) {kind : NodeKind}
    (hkind : kind.isLeaf = false) {next : Builder}
    (hopen : builder.openChild kind line = .ok next)
    (hopens : ¬ builder.script.OpensBeyond limit next.script) : next.Shallow limit := by
  rw [openChild_unlimited line hshallow.unlimited] at hopen
  obtain rfl := Except.ok.inj hopen
  have hdepth := Script.depth_push_nextId kind line hshallow.cursor_lt
  rw [Script.opensBeyond_push_iff hshallow.cursor_lt] at hopens
  constructor
  case unlimited => exact hshallow.unlimited
  case cursor_lt =>
    rw [Script.nodeCount_push]
    exact Nat.lt_succ_self _
  case depth_le =>
    rw [hdepth]
    exact Nat.le_of_not_lt fun hdeep => hopens ⟨hkind, hdeep⟩

/-- What a step needs before it opens a node is the same under a limit. -/
private theorem requireSlot_withLimit {limited unlimited : Except ParseError Builder}
    (hlimited : limited = cutAt limit line builder unlimited) :
    ((builder.withLimit limit).requireSlot line >>= fun _ => limited) =
      cutAt limit line builder (builder.requireSlot line >>= fun _ => unlimited) := by
  have hslot : (builder.withLimit limit).requireSlot line = builder.requireSlot line := rfl
  rw [hslot]
  cases builder.requireSlot line with
  | error error => rfl
  | ok checked => exact hlimited

theorem enterExpression_withLimit (hshallow : builder.Shallow limit) :
    (builder.withLimit limit).enterExpression line =
      cutAt limit line builder (builder.enterExpression line) := by
  have hopen := openChild_withLimit line hshallow .statement rfl
  have hkind : (builder.withLimit limit).kind = builder.kind := rfl
  simp only [enterExpression, hkind]
  cases builder.kind with
  | statement => exact (cutAt_ok_of_le line (Nat.le_refl _)).symm
  | enclosure => exact (cutAt_ok_of_le line (Nat.le_refl _)).symm
  | script => exact hopen
  | block => exact hopen
  | conditional state => exact requireSlot_withLimit line hopen
  | value text => rfl
  | operator text => rfl

private theorem Shallow.enterExpression (hshallow : builder.Shallow limit) {next : Builder}
    (henter : builder.enterExpression line = .ok next)
    (hopens : ¬ builder.script.OpensBeyond limit next.script) : next.Shallow limit := by
  have hopen : builder.openChild .statement line = .ok next → next.Shallow limit :=
    fun hopened => hshallow.openChild line rfl hopened hopens
  rw [Builder.enterExpression] at henter
  split at henter
  · rwa [← Except.ok.inj henter]
  · rwa [← Except.ok.inj henter]
  · exact hopen henter
  · exact hopen henter
  · cases hslot : builder.requireSlot line with
    | error error => simp [hslot, bind, Except.bind] at henter
    | ok checked =>
        rw [hslot] at henter
        exact hopen henter
  · cases henter
  · cases henter

/-- A leaf is as deep as it gets. -/
private theorem addLeaf_withLimit (hshallow : builder.Shallow limit) {leaf : NodeKind}
    (hleaf : leaf.isLeaf = true) :
    (builder.withLimit limit).addLeaf leaf line =
      cutAt limit line builder (builder.addLeaf leaf line) := by
  rw [addLeaf, enterExpression_withLimit line hshallow, addLeaf]
  apply cutAt_bind line (builder.grows_enterExpression line)
  · intro middle
    exact middle.grows_push line leaf
  · intro middle _
    exact ⟨_, rfl⟩
  · intro middle hmiddle hopens
    have hcursor := (hshallow.enterExpression line hmiddle hopens).cursor_lt
    have hleaves : ¬ middle.script.OpensBeyond limit
        (middle.script.push middle.cursor leaf line) := by
      rw [Script.opensBeyond_push_iff hcursor]
      simp [hleaf]
    exact (if_neg hleaves).symm

private theorem openBlock_withLimit (hshallow : builder.Shallow limit) :
    (builder.withLimit limit).openBlock line =
      cutAt limit line builder (builder.openBlock line) := by
  have hopen := openChild_withLimit line hshallow .block rfl
  have hkind : (builder.withLimit limit).kind = builder.kind := rfl
  simp only [openBlock, hkind]
  cases builder.kind with
  | statement => rfl
  | enclosure => rfl
  | conditional state => exact requireSlot_withLimit line hopen
  | script => exact hopen
  | block => exact hopen
  | value text => exact hopen
  | operator text => exact hopen

private theorem openConditional_withLimit (hshallow : builder.Shallow limit) :
    (builder.withLimit limit).openConditional line =
      cutAt limit line builder (builder.openConditional line) := by
  have hopen : ∀ state, (builder.withLimit limit).openChild (.conditional state) line =
      cutAt limit line builder (builder.openChild (.conditional state) line) :=
    fun state => openChild_withLimit line hshallow (.conditional state) rfl
  have hkind : (builder.withLimit limit).kind = builder.kind := rfl
  simp only [openConditional, hkind]
  cases builder.kind with
  | statement => rfl
  | enclosure => rfl
  | conditional state => exact requireSlot_withLimit line (hopen _)
  | script => exact hopen _
  | block => exact hopen _
  | value text => exact hopen _
  | operator text => exact hopen _

/-- A bracket may open a statement first, and then opens its own node in it. -/
private theorem openEnclosure_withLimit (hshallow : builder.Shallow limit) :
    (builder.withLimit limit).openEnclosure line =
      cutAt limit line builder (builder.openEnclosure line) := by
  have hphase : (builder.withLimit limit).phase? = builder.phase? := rfl
  rw [openEnclosure, hphase, openEnclosure]
  split
  · exact openChild_withLimit line hshallow .enclosure rfl
  · rw [enterExpression_withLimit line hshallow]
    apply cutAt_bind line (builder.grows_enterExpression line)
    · intro middle
      exact middle.grows_openChild line .enclosure
    · intro middle hmiddle
      have hunlimited : middle.maxDepth = none :=
        (builder.grows_enterExpression line middle hmiddle).maxDepth.trans hshallow.unlimited
      exact ⟨_, openChild_unlimited line hunlimited .enclosure⟩
    · intro middle hmiddle hopens
      exact openChild_withLimit line (hshallow.enterExpression line hmiddle hopens) .enclosure rfl

/-! ## Completing nodes -/

private theorem returnFromAlternate_withLimit (builder : Builder) (conditional : Nat) :
    (builder.withLimit limit).returnFromAlternate conditional line =
      (builder.returnFromAlternate conditional line).map (·.withLimit limit) := by
  simp only [returnFromAlternate, withLimit]
  split <;> rfl

private theorem ascend_withLimit (builder : Builder) (conditional : Nat) (alternateDone : Bool) :
    (builder.withLimit limit).ascend conditional alternateDone line =
      (builder.ascend conditional alternateDone line).map (·.withLimit limit) := by
  have hscript : (builder.withLimit limit).script = builder.script := rfl
  simp only [ascend, hscript]
  split
  · rfl
  · split
    · exact returnFromAlternate_withLimit line { builder with script := _ } conditional
    · rfl

/-- Completing nodes has nothing to do with the limit. -/
private theorem complete_withLimit (builder : Builder) :
    (builder.withLimit limit).complete line =
      (builder.complete line).map (·.withLimit limit) := by
  have hscript : (builder.withLimit limit).script = builder.script := rfl
  have hcursor : (builder.withLimit limit).cursor = builder.cursor := rfl
  simp only [complete, hscript, hcursor]
  split
  · rfl
  next parent _ =>
    split
    · rfl
    · rfl
    · exact ascend_withLimit line { builder with script := _ } parent false
    · exact ascend_withLimit line { builder with script := _ } parent true
    · rfl
    · rfl

/-- Completing a node opens none. -/
private theorem complete_cutAt (builder : Builder) :
    (builder.withLimit limit).complete line =
      cutAt limit line builder (builder.complete line) :=
  eq_cutAt_of_map line (complete_withLimit line builder) (builder.completes_complete line).nodeCount

/-- The empty statement of a semicolon is opened and completed, which cannot fail. -/
private theorem endStatement_withLimit (hplaced : builder.Placed)
    (hshallow : builder.Shallow limit) :
    (builder.withLimit limit).endStatement line =
      cutAt limit line builder (builder.endStatement line) := by
  have hkind : (builder.withLimit limit).kind = builder.kind := rfl
  have hblameless := hplaced.blameless_apply (.close .statement) line
  have hempty : ∀ state, builder.kind = .conditional state →
      ((builder.withLimit limit).requireSlot line >>= fun _ =>
        (builder.withLimit limit).openChild .statement line >>= (·.complete line)) =
      cutAt limit line builder (builder.requireSlot line >>= fun _ =>
        builder.openChild .statement line >>= (·.complete line)) := by
    intro state hstate
    have hresult : builder.apply (.close .statement) line =
        (builder.requireSlot line >>= fun _ =>
          builder.openChild .statement line >>= (·.complete line)) := by
      simp only [apply, close, endStatement, hstate]
    rw [hresult] at hblameless
    cases hslot : builder.requireSlot line with
    | error error =>
        have hlimited : (builder.withLimit limit).requireSlot line = .error error := hslot
        rw [hlimited]
        rfl
    | ok checked =>
        have hlimited : (builder.withLimit limit).requireSlot line = .ok checked := hslot
        rw [hslot] at hblameless
        rw [hlimited]
        show ((builder.withLimit limit).openChild .statement line >>= (·.complete line)) = _
        rw [openChild_withLimit line hshallow .statement rfl]
        apply cutAt_bind line (builder.grows_openChild line .statement)
        · intro middle
          exact (middle.completes_complete line).grows
        · intro middle hmiddle
          cases hcomplete : middle.complete line with
          | ok next => exact ⟨next, rfl⟩
          | error error =>
              have hinternal := (middle.completes_complete line).internal error hcomplete
              have hexternal := hblameless error (by rw [hmiddle]; exact hcomplete)
              rw [hinternal] at hexternal
              cases hexternal
        · intro middle _ _
          exact complete_cutAt line middle
  simp only [endStatement, hkind]
  cases hstate : builder.kind with
  | statement => exact complete_cutAt line builder
  | enclosure => rfl
  | conditional state => exact hempty state hstate
  | script => exact (cutAt_ok_of_le line (Nat.le_refl _)).symm
  | block => exact (cutAt_ok_of_le line (Nat.le_refl _)).symm
  | value text => exact (cutAt_ok_of_le line (Nat.le_refl _)).symm
  | operator text => exact (cutAt_ok_of_le line (Nat.le_refl _)).symm

private theorem closeNested_withLimit (builder : Builder) (closer : Closer) :
    (builder.withLimit limit).closeNested closer line =
      cutAt limit line builder (builder.closeNested closer line) := by
  have hcomplete : (builder.withLimit limit).complete line =
      cutAt limit line builder (builder.complete line) := complete_cutAt line builder
  have hkind : (builder.withLimit limit).kind = builder.kind := rfl
  simp only [closeNested, hkind]
  cases builder.kind with
  | enclosure =>
      dsimp only
      split
      · exact hcomplete
      · rfl
  | block =>
      dsimp only
      split
      · exact hcomplete
      · rfl
  | script => rfl
  | statement => rfl
  | conditional state => rfl
  | value text => rfl
  | operator text => rfl

private theorem endOpenBody_withLimit (builder : Builder) :
    (builder.withLimit limit).endOpenBody line =
      (builder.endOpenBody line).map (·.withLimit limit) := by
  have hkind : (builder.withLimit limit).kind = builder.kind := rfl
  have hscript : (builder.withLimit limit).script = builder.script := rfl
  have hcursor : (builder.withLimit limit).cursor = builder.cursor := rfl
  simp only [endOpenBody, hkind, hscript, hcursor, complete_withLimit]
  split <;> rfl

/-- An `ELSE` opens no node. -/
private theorem openAlternate_withLimit (builder : Builder) :
    (builder.withLimit limit).openAlternate line =
      cutAt limit line builder (builder.openAlternate line) := by
  refine eq_cutAt_of_map line ?_ fun next hopen => nodeCount_openAlternate hopen
  rw [openAlternate, endOpenBody_withLimit, openAlternate]
  cases builder.endOpenBody line with
  | error error => rfl
  | ok attached =>
      have htarget : (attached.withLimit limit).alternateTarget? = attached.alternateTarget? := rfl
      simp only [Except.map, bind, Except.bind, htarget]
      cases attached.alternateTarget? with
      | none => rfl
      | some target => rfl

/-! ## All steps -/

/-- A step under a limit is the step without one, refused if it opens a node that is too
deep. -/
theorem apply_withLimit (hplaced : builder.Placed) (hshallow : builder.Shallow limit)
    (step : Step) :
    (builder.withLimit limit).apply step line =
      cutAt limit line builder (builder.apply step line) := by
  cases step with
  | value text => exact addLeaf_withLimit line hshallow rfl
  | operator text => exact addLeaf_withLimit line hshallow rfl
  | openBlock => exact openBlock_withLimit line hshallow
  | openEnclosure => exact openEnclosure_withLimit line hshallow
  | openConditional => exact openConditional_withLimit line hshallow
  | openAlternate => exact openAlternate_withLimit line builder
  | close closer =>
      cases closer with
      | statement => exact endStatement_withLimit line hplaced hshallow
      | bracket => exact closeNested_withLimit line builder .bracket
      | block => exact closeNested_withLimit line builder .block

end Builder

end SignalScript
