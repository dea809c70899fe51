import Mathlib.Logic.Relation
import SignalScript.Proofs.Builder.Evolution
import SignalScript.Proofs.Builder.Growth
import SignalScript.Proofs.Parser.Links

/-!
# Closed parts

What a builder changes lies on the way from the root along last children.  Open nodes do,
and so does the conditional that an `ELSE` goes back into.  That `ELSE` opens conditionals
only, so a statement, enclosure or block that is closed stays closed, and nothing in it is
changed by anything that is read later.
-/

namespace SignalScript

/-- The root, its last child, the last child of that, and so on. -/
inductive Script.OnRightmostPath (script : Script) : Nat → Prop
  | root : OnRightmostPath script Script.root
  | last {id child : Nat} (hpath : OnRightmostPath script id)
      (hlast : (script.children id).getLast? = some child) : OnRightmostPath script child

/-- Whether a table has all nodes of another one: with the parents, lines and kinds they
had, but for phases that have moved forward, with further children at most behind those
they had, and with no change at all to what is not on the rightmost path. -/
structure Script.KeptBy (before after : Script) : Prop where
  nodeCount_le : before.nodeCount ≤ after.nodeCount
  kind : ∀ id < before.nodeCount, (before.kind id).Advances (after.kind id)
  parent : ∀ id < before.nodeCount, after.parent? id = before.parent? id
  nodeLine : ∀ id < before.nodeCount, (after.node id).line = (before.node id).line
  children : ∀ id < before.nodeCount, before.children id <+: after.children id
  offPath : ∀ id < before.nodeCount, ¬ before.OnRightmostPath id → after.node id = before.node id

/-- The operations of a builder: reading its name, and every step. -/
inductive Builder.Operates : Builder → Builder → Prop
  | pushName (builder : Builder) (part : String) : Operates builder (builder.pushName part)
  | endName (builder : Builder) : Operates builder builder.endName
  | apply {builder next : Builder} {step : Step} {line : Nat}
      (happly : builder.apply step line = .ok next) : Operates builder next

/-! ## Open nodes on a stack -/

namespace Stack

variable (name : String) (line : Nat)

private theorem onRightmostPath_base (inner base : Stack) (hinner : inner ≠ []) :
    (script name line (inner ++ base)).OnRightmostPath (size base) := by
  induction base generalizing inner with
  | nil => exact .root
  | cons frame outer ih =>
      have houter := ih (inner ++ [frame]) (by simp)
      rw [List.append_assoc, List.singleton_append] at houter
      exact houter.last (children_open name line hinner frame outer)

/-- Every open node is the last child of the one around it. -/
theorem onRightmostPath_of_mem_ids {stack : Stack} {id : Nat} (hid : id ∈ ids stack) :
    (script name line stack).OnRightmostPath id := by
  obtain ⟨inner, frame, outer, rfl, rfl⟩ := exists_frame_of_mem_ids hid
  have hpath := onRightmostPath_base name line (inner ++ [frame]) outer (by simp)
  rwa [List.append_assoc, List.singleton_append] at hpath

theorem ids_settle (stack : Stack) : ids stack.settle = ids stack := by
  cases stack with
  | nil => rfl
  | cons top outer => rfl

/-- What is open above some frames are conditionals if these are all that stands there. -/
private theorem isConditional_of_mem_ids {chain : Stack}
    (hchain : ∀ frame ∈ chain, frame.kind.isConditional = true) (inner base : Stack) :
    ∀ id ∈ ids (chain ++ base), id ∈ ids base ∨
      (script name line (inner ++ (chain ++ base))).isConditional id = true := by
  induction chain generalizing inner with
  | nil => exact fun id hid => .inl hid
  | cons frame chain ih =>
      obtain ⟨hframe, hrest⟩ := List.forall_mem_cons.mp hchain
      intro id hid
      rcases List.mem_cons.mp hid with rfl | hid
      · exact .inr ((isConditional_frame name line inner frame (chain ++ base)).trans hframe)
      · have hothers := ih hrest (inner ++ [frame]) id hid
        rwa [List.append_assoc, List.singleton_append] at hothers

end Stack

namespace Focus

theorem exists_frames (inAlternate : Bool) (base : Stack) (focus : Focus) :
    ∃ inner, focus.frames inAlternate base = inner ++ base := by
  cases focus with
  | phrase => exact ⟨[], rfl⟩
  | head line => exact ⟨[headFrame inAlternate line], rfl⟩
  | exprs anchor around done =>
      rw [frames]
      induction around generalizing done with
      | nil =>
          cases anchor with
          | statement line => exact ⟨[_], rfl⟩
          | condition line bracketLine => exact ⟨[_, _], rfl⟩
      | cons outer around ih =>
          obtain ⟨inner, hinner⟩ := ih outer.1
          exact ⟨_ :: inner, congrArg _ hinner⟩

end Focus

namespace Position

variable (name : String) (line : Nat) (readingName : Bool) (maxDepth : Option Nat)

theorem openIds_builder (position : Position) :
    (position.builder name line readingName maxDepth).openIds =
      Stack.ids (position.frames line) := by
  obtain ⟨top, outer, hframes⟩ := position.frames_ne_nil line
  have hancestors := Stack.ancestors_frame name line [] top.settle outer
  rw [builder, stack, hframes]
  exact congrArg (Stack.size outer :: ·) hancestors

/-- Between the same braces, where a phrase can begin, only conditionals are open that need
not be open elsewhere. -/
theorem openIds_of_phrase {position next : Position} (haround : next.around = position.around)
    (hfocus : next.focus = .phrase) :
    ∀ id ∈ (next.builder name line readingName maxDepth).openIds,
      id ∈ (position.builder name line readingName maxDepth).openIds ∨
        (next.builder name line readingName maxDepth).script.isConditional id = true := by
  obtain ⟨kind, containerLine, outer, -, hlevel⟩ := frames_level line position.around
  obtain ⟨inner, hinner⟩ := position.focus.exists_frames position.level.inAlternate
    (position.level.frames line position.around)
  have hframes : position.frames line = inner ++ position.level.chain ++
      position.level.container kind containerLine :: outer := by
    rw [frames, hinner, hlevel, Level.onto, List.append_assoc]
  have hnext : next.frames line =
      next.level.chain ++ next.level.container kind containerLine :: outer := by
    rw [frames_of_focus line hfocus, haround, Focus.frames, hlevel, Level.onto]
  have hkept : ∀ id ∈ Stack.size outer :: Stack.ids outer,
      id ∈ (position.builder name line readingName maxDepth).openIds := by
    intro id hid
    rw [openIds_builder, hframes, Stack.ids_append]
    exact List.mem_append_right _ hid
  have hscript : (next.builder name line readingName maxDepth).script = Stack.script name line
      (Stack.settle (next.level.chain ++ next.level.container kind containerLine :: outer)) := by
    rw [builder, stack, hnext]
    rfl
  intro id hid
  rw [openIds_builder, hnext] at hid
  rw [hscript]
  have hconditional := next.level.isConditional_chain
  cases hchain : next.level.chain with
  | nil =>
      rw [hchain] at hid
      exact .inl (hkept id hid)
  | cons first rest =>
      rw [hchain] at hid hconditional
      have hsettled : ∀ frame ∈ first.settle :: rest, frame.kind.isConditional = true :=
        List.forall_mem_cons.mpr (List.forall_mem_cons.mp hconditional)
      rcases Stack.isConditional_of_mem_ids name line hsettled []
        (next.level.container kind containerLine :: outer) id hid with hcontainer | hopen
      · exact .inl (hkept id hcontainer)
      · exact .inr hopen

/-- An `ELSE` leads to a place between the same braces where a phrase can begin. -/
theorem around_of_openAlternate {position next : Position} {nodeLine : Nat}
    (hopen : position.openAlternate nodeLine = .ok next) :
    next.around = position.around ∧ next.focus = .phrase := by
  have hresume : ∀ between : Position, between.resume nodeLine = .ok next →
      next.around = between.around ∧ next.focus = .phrase := by
    intro between hresume
    rw [resume] at hresume
    cases hlevel : between.level.resume nodeLine with
    | error error => simp [hlevel, Except.map] at hresume
    | ok level =>
        rw [hlevel] at hresume
        obtain rfl := Except.ok.inj hresume
        exact ⟨rfl, rfl⟩
  unfold openAlternate at hopen
  split at hopen
  next => exact hresume position hopen
  next first done _ =>
    split at hopen
    · have hafter := hresume _ hopen
      exact hafter
    · cases hopen
  next => cases hopen

end Position

/-! ## Builders that can come about -/

namespace Builder

namespace Reachable

variable {builder next : Builder}

theorem operates (hreach : builder.Reachable) (hoperates : builder.Operates next) :
    next.Reachable := by
  cases hoperates with
  | pushName part => exact hreach.pushName _
  | endName => exact hreach.endName
  | apply happly => exact hreach.apply happly

theorem cursor_lt (hreach : builder.Reachable) : builder.cursor < builder.script.nodeCount := by
  obtain ⟨name, line, readingName, maxDepth, position, rfl, -⟩ := hreach.placedNearest
  exact (position.consistent_builder name line readingName maxDepth).cursor_lt

theorem upward (hreach : builder.Reachable) : builder.script.Upward := by
  induction hreach with
  | start line maxDepth =>
      intro id hid parent hparent
      obtain rfl : id = 0 := by
        simpa [Builder.start, Script.opened, Script.nodeCount] using hid
      cases hparent
  | pushName hreach part ih => exact ih
  | endName hreach ih => exact ih
  | @apply builder next step line hreach happly ih =>
      have hconfined : builder.Confined fun _ => True :=
        ⟨hreach.cursor_lt, ih, fun _ _ => trivial, fun _ _ => trivial⟩
      by_cases helse : step = .openAlternate
      · subst helse
        exact ih.evolves (evolves_openAlternate hconfined happly trivial)
      · exact ih.evolves (evolving_apply hconfined helse next happly).script

/-- What is open or new is all that a builder can change. -/
theorem confined (hreach : builder.Reachable) {touched : Nat → Prop}
    (hopen : ∀ id ∈ builder.openIds, touched id)
    (hnew : ∀ id, builder.script.nodeCount ≤ id → touched id) : builder.Confined touched :=
  ⟨hreach.cursor_lt, hreach.upward, hopen, hnew⟩

/-- A step changes nodes that are open before it or after it. -/
theorem evolves_apply (hreach : builder.Reachable) {step : Step} {line : Nat}
    (happly : builder.apply step line = .ok next) :
    builder.script.Evolves (fun id => id ∈ builder.openIds ∨ id ∈ next.openIds) line
      next.script := by
  have hconfined : builder.Confined fun id =>
      id ∈ builder.openIds ∨ id ∈ next.openIds ∨ builder.script.nodeCount ≤ id :=
    hreach.confined (fun _ hid => .inl hid) fun _ hid => .inr (.inr hid)
  have hevolves : builder.script.Evolves (fun id =>
      id ∈ builder.openIds ∨ id ∈ next.openIds ∨ builder.script.nodeCount ≤ id) line
        next.script := by
    by_cases helse : step = .openAlternate
    · subst helse
      exact evolves_openAlternate hconfined happly (.inr (.inl (Confined.cursor_mem next)))
    · exact (evolving_apply hconfined helse next happly).script
  refine hevolves.mono ?_
  rintro id hid (hbefore | hafter | hnew)
  · exact .inl hbefore
  · exact .inr hafter
  · omega

/-- After a step the same nodes are open, and new ones, or without a new node also
conditionals. -/
theorem openIds_apply (hreach : builder.Reachable) {step : Step} {line : Nat}
    (happly : builder.apply step line = .ok next) :
    ∀ id ∈ next.openIds, id ∈ builder.openIds ∨ builder.script.nodeCount ≤ id ∨
      next.script.nodeCount = builder.script.nodeCount ∧
        next.script.isConditional id = true := by
  by_cases helse : step = .openAlternate
  · subst helse
    have hcount := nodeCount_openAlternate happly
    obtain ⟨name, first, readingName, maxDepth, position, rfl, -⟩ := hreach.placedNearest
    obtain ⟨after, hstep, rfl⟩ := Position.exists_step_of_apply _ _ _ _ happly
    obtain ⟨haround, hfocus⟩ := Position.around_of_openAlternate hstep
    intro id hid
    rcases Position.openIds_of_phrase name first readingName maxDepth haround hfocus id hid with
      hopen | hconditional
    · exact .inl hopen
    · exact .inr (.inr ⟨hcount, hconditional⟩)
  · have hconfined : builder.Confined fun id =>
        id ∈ builder.openIds ∨ builder.script.nodeCount ≤ id :=
      hreach.confined (fun _ hid => .inl hid) fun _ hid => .inr hid
    intro id hid
    rcases (evolving_apply hconfined helse next happly).confined.isOpen id hid with hopen | hnew
    · exact .inl hopen
    · exact .inr (.inl hnew)

/-- Reading the name changes no node. -/
theorem evolves_named (hreach : builder.Reachable) (next : Builder)
    (hnodes : next.script.nodes = builder.script.nodes)
    (hheader : next.script.line = builder.script.line) (hcursor : next.cursor = builder.cursor)
    (touched : Nat → Prop) (line : Nat) :
    builder.script.Evolves touched line next.script ∧ next.openIds = builder.openIds := by
  have hnode : ∀ id, next.script.node id = builder.script.node id := by
    intro id
    rw [Script.node, Script.node, hnodes, hheader]
  have hevolves : builder.script.Evolves touched line next.script := by
    refine .of_amends hheader (by rw [Script.nodeCount, Script.nodeCount, hnodes]) ?_
      fun id _ _ => hnode id
    intro id _
    rw [hnode]
    exact .refl _
  refine ⟨hevolves, ?_⟩
  rw [openIds, openIds, hcursor, hevolves.toExtends.ancestors_eq hreach.cursor_lt]

/-- An operation changes nodes that are open before it or after it. -/
theorem evolves (hreach : builder.Reachable) (hoperates : builder.Operates next) :
    ∃ line, builder.script.Evolves (fun id => id ∈ builder.openIds ∨ id ∈ next.openIds) line
      next.script := by
  cases hoperates with
  | pushName part => exact ⟨0, (hreach.evolves_named (builder.pushName part) rfl rfl rfl _ 0).1⟩
  | endName => exact ⟨0, (hreach.evolves_named builder.endName rfl rfl rfl _ 0).1⟩
  | apply happly => exact ⟨_, hreach.evolves_apply happly⟩

theorem openIds_operates (hreach : builder.Reachable) (hoperates : builder.Operates next) :
    ∀ id ∈ next.openIds, id ∈ builder.openIds ∨ builder.script.nodeCount ≤ id ∨
      next.script.nodeCount = builder.script.nodeCount ∧
        next.script.isConditional id = true := by
  cases hoperates with
  | pushName part =>
      rw [(hreach.evolves_named (builder.pushName part) rfl rfl rfl (fun _ => True) 0).2]
      exact fun id hid => .inl hid
  | endName =>
      rw [(hreach.evolves_named builder.endName rfl rfl rfl (fun _ => True) 0).2]
      exact fun id hid => .inl hid
  | apply happly => exact hreach.openIds_apply happly

end Reachable

end Builder

/-- Tables with the same children have the same rightmost path. -/
theorem Script.OnRightmostPath.of_children {before after : Script}
    (hchildren : ∀ id, after.children id = before.children id) {id : Nat}
    (hpath : after.OnRightmostPath id) : before.OnRightmostPath id := by
  induction hpath with
  | root => exact .root
  | last hpath hlast ih =>
      rw [hchildren] at hlast
      exact ih.last hlast

namespace Builder

variable {builder next : Builder}

theorem Reachable.onRightmostPath (hreach : builder.Reachable) {id : Nat}
    (hid : id ∈ builder.openIds) : builder.script.OnRightmostPath id := by
  obtain ⟨name, line, readingName, maxDepth, position, rfl, -⟩ := hreach.placedNearest
  rw [Position.openIds_builder, ← Stack.ids_settle] at hid
  exact Stack.onRightmostPath_of_mem_ids name line hid

/-- What is open after an operation was on the rightmost path before it, if it was there. -/
theorem Reachable.onRightmostPath_operates (hreach : builder.Reachable)
    (hoperates : builder.Operates next) {id : Nat} (hid : id < builder.script.nodeCount)
    (hopen : id ∈ next.openIds) : builder.script.OnRightmostPath id := by
  rcases hreach.openIds_operates hoperates id hopen with hbefore | hnew | ⟨hcount, -⟩
  · exact hreach.onRightmostPath hbefore
  · omega
  · -- Without a new node all nodes keep their children.
    obtain ⟨line, hevolves⟩ := hreach.evolves hoperates
    refine Script.OnRightmostPath.of_children ?_ ((hreach.operates hoperates).onRightmostPath hopen)
    intro other
    by_cases hother : other < builder.script.nodeCount
    · exact hevolves.children_eq hcount hother
    · rw [Script.children, Script.children, Script.node_outside (by omega),
        Script.node_outside (by omega)]

/-- An operation keeps all nodes, and changes only those on the rightmost path. -/
theorem Reachable.keptBy (hreach : builder.Reachable) (hoperates : builder.Operates next) :
    builder.script.KeptBy next.script := by
  obtain ⟨line, hevolves⟩ := hreach.evolves hoperates
  refine ⟨hevolves.nodeCount_le, hevolves.kind, hevolves.parent, hevolves.nodeLine, ?_, ?_⟩
  · intro id hid
    obtain ⟨added, hadded, -⟩ := hevolves.children id hid
    exact ⟨added, hadded.symm⟩
  · intro id hid hoff
    refine hevolves.untouched id hid ?_
    rintro (hbefore | hafter)
    · exact hoff (hreach.onRightmostPath hbefore)
    · exact hoff (hreach.onRightmostPath_operates hoperates hid hafter)

/-! ## Nodes that stay closed -/

/-- Whether a node is closed, and no conditional that could be opened again. -/
structure Sealed (builder : Builder) (id : Nat) : Prop where
  lt : id < builder.script.nodeCount
  isClosed : id ∉ builder.openIds
  kind : builder.script.isConditional id = false

namespace Sealed

variable {id below : Nat}

/-- Nothing below a closed node is open. -/
theorem not_open (hsealed : builder.Sealed id)
    (hbelow : below = id ∨ id ∈ builder.script.ancestors below) : below ∉ builder.openIds := by
  intro hopen
  rcases hbelow with rfl | hancestor
  · exact hsealed.isClosed hopen
  · exact hsealed.isClosed (Confined.ancestors_subset hopen hancestor)

theorem operates (hreach : builder.Reachable) (hsealed : builder.Sealed id)
    (hoperates : builder.Operates next) : next.Sealed id := by
  obtain ⟨line, hevolves⟩ := hreach.evolves hoperates
  have hkind := (hevolves.isConditional_eq hsealed.lt).trans hsealed.kind
  refine ⟨Nat.lt_of_lt_of_le hsealed.lt hevolves.nodeCount_le, ?_, hkind⟩
  intro hopen
  rcases hreach.openIds_operates hoperates id hopen with hbefore | hnew | ⟨-, hconditional⟩
  · exact hsealed.isClosed hbefore
  · exact absurd hsealed.lt (Nat.not_lt.mpr hnew)
  · rw [hkind] at hconditional
    cases hconditional

/-- An operation leaves a closed node alone and all that is below it. -/
theorem node_operates (hreach : builder.Reachable) (hsealed : builder.Sealed id)
    (hoperates : builder.Operates next) (hlt : below < builder.script.nodeCount)
    (hbelow : below = id ∨ id ∈ builder.script.ancestors below) :
    next.script.node below = builder.script.node below ∧
      next.script.ancestors below = builder.script.ancestors below := by
  obtain ⟨line, hevolves⟩ := hreach.evolves hoperates
  have hancestors := hevolves.toExtends.ancestors_eq hlt
  refine ⟨hevolves.untouched below hlt ?_, hancestors⟩
  rintro (hbefore | hafter)
  · exact hsealed.not_open hbelow hbefore
  · rw [← hancestors] at hbelow
    exact (hsealed.operates hreach hoperates).not_open hbelow hafter

/-- No operations, however many, change a closed node or anything below it. -/
theorem node_later (hreach : builder.Reachable) (hsealed : builder.Sealed id) {later : Builder}
    (hlater : Relation.ReflTransGen Operates builder later)
    (hlt : below < builder.script.nodeCount)
    (hbelow : below = id ∨ id ∈ builder.script.ancestors below) :
    later.script.node below = builder.script.node below := by
  induction hlater using Relation.ReflTransGen.head_induction_on with
  | refl => rfl
  | head hoperates _ ih =>
      have hnode := hsealed.node_operates hreach hoperates hlt hbelow
      obtain ⟨line, hevolves⟩ := hreach.evolves hoperates
      rw [ih (hreach.operates hoperates) (hsealed.operates hreach hoperates)
        (Nat.lt_of_lt_of_le hlt hevolves.nodeCount_le) (hnode.2 ▸ hbelow), hnode.1]

end Sealed

/-- Every operation keeps all nodes and changes only those on the rightmost path, and once
a node that is no conditional is closed, neither it nor anything below it is changed by any
later operations. -/
theorem closed_parts_kept {builder : Builder} (hreach : builder.Reachable) :
    (∀ next, builder.Operates next → builder.script.KeptBy next.script) ∧
      ∀ id < builder.script.nodeCount, id ∉ builder.openIds →
        builder.script.isConditional id = false →
          ∀ later, Relation.ReflTransGen Operates builder later →
            ∀ below < builder.script.nodeCount,
              below = id ∨ id ∈ builder.script.ancestors below →
                later.script.node below = builder.script.node below :=
  ⟨fun _ hoperates => hreach.keptBy hoperates,
    fun _ hlt hclosed hkind _ hlater _ hbelow =>
      Sealed.node_later hreach ⟨hlt, hclosed, hkind⟩ hlater hbelow⟩

/-- An `ELSE` goes back into the conditional of these lines, and leaves the block in it
alone. -/
theorem closed_parts_kept_else :
    ∃ builder next : Builder, builder.Reachable ∧ builder.openAlternate 3 = .ok next ∧
      next.cursor = 1 ∧ builder.script.KeptBy next.script ∧
        builder.script.kind 4 = .block ∧ 4 ∈ builder.script.ancestors 6 ∧
          next.script.node 6 = builder.script.node 6 := by
  let parser := (Parser.ofLines ["SCRIPT A", "IF (X) \x7bY;\x7d"] {}).next.2
  have hclosed : parser.assembler.builder.any fun builder =>
      builder.script.nodeCount = 7 ∧ 4 ∉ builder.openIds ∧ builder.script.kind 4 = .block ∧
        4 ∈ builder.script.ancestors 6 := by
    decide +kernel
  have hopened : parser.assembler.builder.any fun builder =>
      (builder.openAlternate 3).toOption.any (·.cursor == 1) := by
    decide +kernel
  obtain ⟨builder, hbuilder, hclosed⟩ := (Option.any_eq_true _ _).mp hclosed
  obtain ⟨hcount, hsealed, hkind, hancestor⟩ := of_decide_eq_true hclosed
  rw [hbuilder, Option.any_some] at hopened
  obtain ⟨next, hnext, hcursor⟩ := (Option.any_eq_true _ _).mp hopened
  have hopen : builder.openAlternate 3 = .ok next := ok_of_toOption hnext
  have hreach : builder.Reachable := Parser.reachable_builder (.next .start) builder hbuilder
  have hoperates : builder.Operates next := @Operates.apply _ _ .openAlternate 3 hopen
  obtain ⟨hkept, hnode⟩ := closed_parts_kept hreach
  have hcontainer : builder.script.isConditional 4 = false := by
    rw [Script.isConditional, hkind]
    rfl
  exact ⟨builder, next, hreach, hopen, by simpa using hcursor, hkept next hoperates, hkind,
    hancestor, hnode 4 (by omega) hsealed hcontainer next (.single hoperates) 6 (by omega)
      (.inr hancestor)⟩

end Builder

end SignalScript
