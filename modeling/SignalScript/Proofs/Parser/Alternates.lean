import Mathlib.Order.Bounds.Defs
import SignalScript.Proofs.Builder.Nearest
import SignalScript.Proofs.Parser.Safety

/-!
# What an `ELSE` belongs to

An `ELSE` first ends the statement at the cursor, if that is the body or alternate of a
conditional.  Then the cursor is in a script or block, or there is nothing that the `ELSE`
could belong to.  Of all conditionals without an `ELSE` that the ways from the last child
there lead to it takes the last one, and it is refused only if there are none.
-/

namespace SignalScript

namespace Builder

/-- The builders that can come about: at the beginning of a script, in its name, and after
every step. -/
inductive Reachable : Builder → Prop
  | start (line : Nat) (maxDepth : Option Nat) : Reachable (.start line maxDepth)
  | pushName {builder : Builder} (hreach : Reachable builder) (part : String) :
      Reachable (builder.pushName part)
  | endName {builder : Builder} (hreach : Reachable builder) : Reachable builder.endName
  | apply {builder next : Builder} {step : Step} {line : Nat} (hreach : Reachable builder)
      (happly : builder.apply step line = .ok next) : Reachable next

/-- Whether the node at the cursor can hold the phrases of a script or block. -/
def IsContainer (builder : Builder) : Prop :=
  builder.kind = .script ∨ builder.kind = .block

theorem IsContainer.alternateTarget?_eq {builder : Builder} (hcontainer : builder.IsContainer) :
    builder.alternateTarget? =
      (builder.script.children builder.cursor).getLast?.bind builder.script.deepestUnresolved := by
  rw [alternateTarget?]
  rcases hcontainer with hkind | hkind
  · simp only [hkind]
  · simp only [hkind]

/-- Whether a way from the last child of the node at the cursor leads to a conditional that
has a body and no `ELSE`. -/
def EndsInOpen (builder : Builder) (target : Nat) : Prop :=
  ∃ last, (builder.script.children builder.cursor).getLast? = some last ∧
    builder.script.LeadsToOpen last target

/-- Whether a builder stands at a position at which every `ELSE` has gone to the nearest
`IF`. -/
def PlacedNearest (builder : Builder) : Prop :=
  ∃ (name : String) (line : Nat) (readingName : Bool) (maxDepth : Option Nat)
    (position : Position),
      builder = position.builder name line readingName maxDepth ∧ position.Nearest

theorem Reachable.placedNearest {builder : Builder} (hreach : builder.Reachable) :
    builder.PlacedNearest := by
  induction hreach with
  | start line maxDepth => exact ⟨"", line, true, maxDepth, {}, rfl, Position.nearest_start⟩
  | pushName hreach part ih =>
      obtain ⟨name, line, readingName, maxDepth, position, rfl, hnearest⟩ := ih
      exact ⟨name ++ part, line, readingName, maxDepth, position, rfl, hnearest⟩
  | endName hreach ih =>
      obtain ⟨name, line, readingName, maxDepth, position, rfl, hnearest⟩ := ih
      exact ⟨name, line, false, maxDepth, position, rfl, hnearest⟩
  | apply hreach happly ih =>
      obtain ⟨name, line, readingName, maxDepth, position, rfl, hnearest⟩ := ih
      obtain ⟨after, hstep, hnext⟩ := Position.exists_step_of_apply _ _ _ _ happly
      exact ⟨name, line, readingName, maxDepth, after, hnext,
        hnearest.moves (Position.moves_step hstep)⟩

theorem reachable_invariant : Invariant (fun _ => True) Reachable where
  start _ maxDepth := .start _ maxDepth
  pushName _ _ hreach := hreach.pushName _
  endName hreach := hreach.endName
  apply _ _ hreach happly := hreach.apply happly

end Builder

/-- What a parser builds can come about. -/
theorem Parser.reachable_builder {lines : List String} {options : Options} {parser : Parser}
    (hreach : Reachable lines options parser) :
    parser.assembler.Holds Builder.Reachable :=
  hreach.holds (Assembler.holds_none rfl)
    (fun _ _ hholds => (Builder.reachable_invariant.kept_consume hholds trivial).assembler)
    fun _ hholds => hholds

/-! ## The end of a container -/

namespace Phrase

/-- The last of some ascending numbers is the greatest. -/
private theorem isGreatest_getLast? {ids : List Nat} (hsorted : ids.Pairwise (· < ·)) {last : Nat}
    (hlast : ids.getLast? = some last) : IsGreatest {id | id ∈ ids} last := by
  obtain ⟨front, rfl⟩ := List.getLast?_eq_some_iff.mp hlast
  obtain ⟨-, -, hbefore⟩ := List.pairwise_append.mp hsorted
  refine ⟨List.mem_append_right _ (.head _), ?_⟩
  intro other hother
  rcases List.mem_append.mp hother with hfront | hother
  · exact Nat.le_of_lt (hbefore other hfront last (.head _))
  · exact Nat.le_of_eq (List.mem_singleton.mp hother)

variable {script : Script} {parent id : Nat}

/-- The walk for an `ELSE` from a phrase finds the last of all conditionals that it could
belong to, if there are any. -/
theorem deepestUnresolved_greatest {phrase : Phrase} (hnearest : phrase.Nearest)
    (hbranch : script.HasBranch parent id (phrase.branch false)) :
    match script.deepestUnresolved id with
    | none => ∀ target, ¬ script.LeadsToOpen id target
    | some target => IsGreatest {other | script.LeadsToOpen id other} target := by
  have hmem : ∀ target, target ∈ phrase.openIds id ↔ script.LeadsToOpen id target :=
    fun _ => mem_openIds_iff hbranch
  rw [deepestUnresolved_eq_getLast? hnearest hbranch]
  cases hlast : (phrase.openIds id).getLast? with
  | none =>
      intro target htarget
      rw [← hmem, List.getLast?_eq_none_iff.mp hlast] at htarget
      cases htarget
  | some target =>
      have hgreatest := isGreatest_getLast? (openIds_sorted id phrase).1 hlast
      simpa only [hmem] using hgreatest

end Phrase

namespace Position

variable (name : String) (line : Nat) (readingName : Bool) (maxDepth : Option Nat)

/-- In a script or block a position is between two phrases. -/
theorem between_of_isContainer {position : Position}
    (hcontainer : (position.builder name line readingName maxDepth).IsContainer) :
    position.focus = .phrase ∧ position.level.inSlot = false := by
  cases hfocus : position.focus with
  | phrase =>
      obtain ⟨top, outer, hframes, -, hcases⟩ := phrase_top line position hfocus
      rw [Builder.IsContainer, kind_of_frames _ _ _ _ hframes] at hcontainer
      rcases hcases with ⟨hslot, -⟩ | ⟨-, isAlternate, hkind⟩
      · exact ⟨rfl, hslot⟩
      · simp [hkind] at hcontainer
  | head headLine =>
      rw [Builder.IsContainer, kind_head _ _ _ _ hfocus] at hcontainer
      simp at hcontainer
  | exprs anchor around done =>
      rw [Builder.IsContainer, kind_exprs _ _ _ _ hfocus] at hcontainer
      rcases around with _ | _ <;> cases anchor <;> simp [exprsKind] at hcontainer

/-- Between two phrases, the branches at the cursor are those of the phrases that are
complete. -/
theorem exists_container {position : Position} (hfocus : position.focus = .phrase)
    (hslot : position.level.inSlot = false) :
    ∃ (container : Frame) (outer : Stack),
      position.stack line = container :: outer ∧
        container.closed = Phrase.branches position.level.done := by
  obtain ⟨kind, containerLine, outer, -, hframes⟩ := frames_level line position.around
  rcases position.level.chain_cases with ⟨-, -, hchain, -⟩ | ⟨arm, isAlternate, rest, hopen, -⟩
  · refine ⟨(position.level.container kind containerLine).settle, outer, ?_, rfl⟩
    rw [stack, frames_of_focus line hfocus, Focus.frames, hframes, Level.onto, hchain]
    rfl
  · rw [hslot] at hopen
    cases hopen

/-- In a statement, expressions are open and no brackets around them. -/
theorem focus_of_statement {position : Position}
    (hkind : (position.builder name line readingName maxDepth).kind = .statement) :
    ∃ first done, position.focus = .exprs (.statement first) [] done := by
  cases hfocus : position.focus with
  | phrase => exact absurd hkind (kind_phrase_ne_statement _ _ _ _ hfocus)
  | head headLine =>
      rw [kind_head _ _ _ _ hfocus] at hkind
      cases hkind
  | exprs anchor around done =>
      rw [kind_exprs _ _ _ _ hfocus] at hkind
      rcases around with _ | _ <;> rcases anchor with first | _ <;> cases hkind
      exact ⟨first, done, rfl⟩

/-- A conditional that is taken up again waits for its alternate. -/
theorem phase?_of_resume {position next : Position} {nodeLine : Nat}
    (hresume : position.resume nodeLine = .ok next) : next.phase? = some .awaitingAlternate := by
  rw [resume, Level.resume] at hresume
  split at hresume
  · cases hresume
  · split at hresume
    · cases hresume
    · obtain rfl := Except.ok.inj hresume
      rfl

end Position

namespace Builder.PlacedNearest

variable {builder : Builder}

/-- In a script or block, the walk for an `ELSE` finds the last of all conditionals that it
could belong to, if there are any. -/
theorem alternateTarget?_greatest (hplaced : builder.PlacedNearest)
    (hcontainer : builder.IsContainer) :
    match builder.alternateTarget? with
    | none => ∀ target, ¬ builder.EndsInOpen target
    | some target => IsGreatest {other | builder.EndsInOpen other} target := by
  rw [hcontainer.alternateTarget?_eq]
  obtain ⟨name, line, readingName, maxDepth, position, rfl, hnearest⟩ := hplaced
  obtain ⟨hfocus, hslot⟩ := Position.between_of_isContainer _ _ _ _ hcontainer
  obtain ⟨container, outer, hstack, hclosed⟩ := Position.exists_container line hfocus hslot
  have hbuilder : position.builder name line readingName maxDepth =
      Stack.builder name line readingName maxDepth (container :: outer) := by
    rw [Position.builder, hstack]
  have hscript : (position.builder name line readingName maxDepth).script =
      Stack.script name line (container :: outer) :=
    congrArg Builder.script hbuilder
  have hcursor : (position.builder name line readingName maxDepth).cursor = Stack.size outer :=
    congrArg Builder.cursor hbuilder
  simp only [EndsInOpen, hscript, hcursor]
  rcases List.eq_nil_or_concat position.level.done with hnil | ⟨front, last, hdone⟩
  · have hnode := Stack.node_frame name line [] container outer
    rw [List.nil_append] at hnode
    rw [hnil] at hclosed
    have hchildren : (Stack.script name line (container :: outer)).children (Stack.size outer) =
        [] := by
      simp [Script.children, hnode, Frame.row, Frame.children, hclosed, Phrase.branches]
    rw [hchildren]
    simp
  · rw [List.concat_eq_append] at hdone
    rw [hdone] at hclosed
    have hforest := Stack.hasForest_frame name line [] container outer
    rw [List.nil_append, hclosed, Phrase.branches_append] at hforest
    have hlast : last.Nearest := hnearest.level.done last (by simp [hdone])
    have hgreatest := Phrase.deepestUnresolved_greatest hlast hforest.last
    rw [Level.children_container name line front last container outer hclosed]
    simpa using hgreatest

/-- The statement that an `ELSE` may end can be ended, and nothing else with it. -/
theorem exists_attached (hplaced : builder.PlacedNearest) (line : Nat) :
    ∃ attached, builder.endOpenBody line = .ok attached ∧
      attached.endOpenBody line = .ok attached ∧ attached.PlacedNearest := by
  have hstay (hend : builder.endOpenBody line = .ok builder) :
      ∃ attached, builder.endOpenBody line = .ok attached ∧
        attached.endOpenBody line = .ok attached ∧ attached.PlacedNearest :=
    ⟨builder, hend, hend, hplaced⟩
  by_cases hkind : builder.kind = .statement
  case neg => exact hstay (Position.endOpenBody_of_kind line hkind)
  case pos =>
    obtain ⟨name, first, readingName, maxDepth, position, rfl, hnearest⟩ := hplaced
    obtain ⟨opened, done, hfocus⟩ := Position.focus_of_statement _ _ _ _ hkind
    have hend := Position.endOpenBody_statement name first readingName maxDepth hfocus line
    split at hend
    · let after := position.addPhrase (.statement opened done)
      have hafter : (after.builder name first readingName maxDepth).kind ≠ .statement :=
        Position.kind_phrase_ne_statement _ _ _ _ rfl
      exact ⟨_, hend, Position.endOpenBody_of_kind line hafter, name, first, readingName,
        maxDepth, after, rfl, hnearest.addStatement _ _⟩
    · exact hstay hend

/-- A conditional that an `ELSE` takes up again waits for its alternate. -/
theorem phase?_of_openAlternate (hplaced : builder.PlacedNearest)
    (hcontainer : builder.IsContainer) {next : Builder} {line : Nat}
    (hopened : builder.openAlternate line = .ok next) : next.phase? = some .awaitingAlternate := by
  obtain ⟨name, first, readingName, maxDepth, position, rfl, -⟩ := hplaced
  obtain ⟨hfocus, -⟩ := Position.between_of_isContainer _ _ _ _ hcontainer
  rw [Position.resume_phrase _ _ _ _ hfocus] at hopened
  cases hresume : position.resume line with
  | error error => simp [hresume, Except.map] at hopened
  | ok after =>
      rw [hresume] at hopened
      obtain rfl := Except.ok.inj hopened
      rw [Position.phase?_builder]
      exact Position.phase?_of_resume hresume

end Builder.PlacedNearest

namespace Builder

/-- Once the statement before it is ended, an `ELSE` is refused exactly if no way leads to a
conditional that it could belong to, and else takes the last of them up again. -/
theorem openAlternate_nearest {builder : Builder} (hreach : builder.Reachable) (line : Nat) :
    ∃ attached, builder.endOpenBody line = .ok attached ∧
      (builder.openAlternate line = .error (.elseWithoutIf line) ↔
        ¬ attached.IsContainer ∨ ∀ target, ¬ attached.EndsInOpen target) ∧
      (attached.IsContainer → (∃ target, attached.EndsInOpen target) →
        ∃ next, builder.openAlternate line = .ok next ∧
          next.phase? = some .awaitingAlternate ∧
          IsGreatest {target | attached.EndsInOpen target} next.cursor) := by
  obtain ⟨attached, hend, hended, hplaced⟩ := hreach.placedNearest.exists_attached line
  refine ⟨attached, hend, ?_⟩
  rw [Position.openAlternate_of_endOpenBody hend hended]
  by_cases hcontainer : attached.IsContainer
  case neg =>
    have hrefused := Position.openAlternate_elsewhere hended (fun hkind => hcontainer (.inl hkind))
      fun hkind => hcontainer (.inr hkind)
    simp [hrefused, hcontainer]
  case pos =>
    have hgreatest := hplaced.alternateTarget?_greatest hcontainer
    have hopened := Level.openAlternate_between hcontainer line
    rw [← hcontainer.alternateTarget?_eq] at hopened
    cases htarget : attached.alternateTarget? with
    | none =>
        rw [htarget] at hgreatest hopened
        refine ⟨⟨fun _ => .inr hgreatest, fun _ => hopened⟩, ?_⟩
        rintro - ⟨target, htarget⟩
        exact absurd htarget (hgreatest target)
    | some target =>
        rw [htarget] at hgreatest hopened
        refine ⟨⟨?refused, ?offered⟩, fun _ _ =>
          ⟨_, hopened, hplaced.phase?_of_openAlternate hcontainer hopened, hgreatest⟩⟩
        case refused =>
          rw [hopened]
          exact nofun
        case offered =>
          rintro (hno | hno)
          · exact absurd hcontainer hno
          · exact absurd hgreatest.1 (hno target)

/-- Behind `IF (A) X; ELSE IF (B) IF (C) Y` an `ELSE` could belong to the second `IF` and to
the third. -/
theorem openAlternate_nearest_elseIf :
    ∃ builder attached next : Builder, builder.Reachable ∧ builder.endOpenBody 2 = .ok attached ∧
      attached.EndsInOpen 6 ∧ builder.openAlternate 2 = .ok next ∧ next.cursor = 9 ∧
        IsGreatest {target | attached.EndsInOpen target} next.cursor := by
  let parser := (Parser.ofLines ["SCRIPT A", "IF (A) X; ELSE IF (B) IF (C) Y"] {}).next.2
  have hread : (parser.assembler.builder.bind fun builder =>
      (builder.openAlternate 2).toOption.map (·.cursor)) = some 9 := by
    decide +kernel
  have hends : (parser.assembler.builder.bind fun builder =>
      (builder.endOpenBody 2).toOption).all fun attached =>
        (attached.script.children attached.cursor).getLast? = some 1 ∧
          attached.script.alternate? 1 = some 6 ∧
            attached.script.phase? 6 = some .bodyComplete := by
    decide +kernel
  obtain ⟨builder, hbuilder, htaken⟩ := Option.bind_eq_some_iff.mp hread
  have hreach : builder.Reachable :=
    Parser.reachable_builder (.next .start) builder hbuilder
  obtain ⟨attached, hend, hrefused, hnearest⟩ := openAlternate_nearest hreach 2
  have hopen : attached.EndsInOpen 6 := by
    simp only [hbuilder, Option.bind_some, hend, Except.toOption, Option.all_some,
      decide_eq_true_eq] at hends
    obtain ⟨hlast, halternate, hphase⟩ := hends
    exact ⟨1, hlast, .alternate halternate (.here 6), hphase⟩
  have hcontainer : attached.IsContainer := by
    refine Classical.byContradiction fun hno => ?_
    rw [hrefused.mpr (.inl hno)] at htaken
    cases htaken
  obtain ⟨next, hnext, -, hgreatest⟩ := hnearest hcontainer ⟨6, hopen⟩
  rw [hnext] at htaken
  exact ⟨builder, attached, next, hreach, hend, hopen, hnext, Option.some.inj htaken, hgreatest⟩

end Builder

end SignalScript
