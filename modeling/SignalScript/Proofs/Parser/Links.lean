import SignalScript.Proofs.Parser.Alternates
import SignalScript.Proofs.Parser.Scripts
import SignalScript.Proofs.Parser.Warnings
import SignalScript.Proofs.Tree.Links

/-!
# Where links lead

Opening a child links its parent to it, and completing a node takes the links of the
conditionals away that are complete with it, but not that of the script or block around
them.  So a script or block stays linked to its last child if that is a conditional, also
when the script is handed out; and when an `ELSE` goes back into a conditional, those on the
way to it have no link.  Following the links from the root ends at the cursor exactly
where neither is the case.
-/

namespace SignalScript

/-! ## Links of frames -/

/-- Whether the frame is linked unless it is a conditional that has everything. -/
def Frame.LinksOpen (frame : Frame) : Prop :=
  frame.linked = !frame.phase?.any Phase.isFilled

theorem Arm.linksOpen_chain {reopened isAlternate : Bool} {arms : List Arm} :
    ∀ frame ∈ chain reopened isAlternate arms, frame.LinksOpen := by
  intro frame hframe
  obtain ⟨arm, inAlternate, rfl⟩ := frame_of_mem_chain hframe
  rcases arm with ⟨condition, _ | body⟩
  · cases reopened <;> rfl
  · cases reopened <;> rfl

namespace Level

theorem linksOpen_onto (level : Level) {kind : NodeKind} (hkind : kind.isConditional = false)
    (line : Nat) {outer : Stack} (houter : ∀ frame ∈ outer, frame.LinksOpen) :
    ∀ frame ∈ level.onto kind line outer, frame.LinksOpen := by
  have hcontainer : (level.container kind line).LinksOpen := by
    cases kind with
    | conditional state => cases hkind
    | _ => rfl
  have hchain : ∀ frame ∈ level.chain, frame.LinksOpen :=
    List.forall_mem_append.mpr ⟨Arm.linksOpen_chain, Arm.linksOpen_chain⟩
  exact List.forall_mem_append.mpr ⟨hchain, List.forall_mem_cons.mpr ⟨hcontainer, houter⟩⟩

theorem linksOpen_frames (line : Nat) (level : Level) (around : List (Level × Nat)) :
    ∀ frame ∈ level.frames line around, frame.LinksOpen := by
  induction around generalizing level with
  | nil => exact level.linksOpen_onto rfl line (List.forall_mem_nil _)
  | cons outer around ih => exact level.linksOpen_onto rfl outer.2 (ih outer.1)

end Level

namespace Focus

theorem linksOpen_exprFrames (inAlternate : Bool) {base : Stack}
    (hbase : ∀ frame ∈ base, frame.LinksOpen) (anchor : Anchor) (around : List (List Expr × Nat))
    (done : List Expr) :
    ∀ frame ∈ exprFrames inAlternate base anchor around done, frame.LinksOpen := by
  induction around generalizing done with
  | nil =>
      cases anchor with
      | statement line => exact List.forall_mem_cons.mpr ⟨rfl, hbase⟩
      | condition line bracketLine =>
          exact List.forall_mem_cons.mpr ⟨rfl, List.forall_mem_cons.mpr ⟨rfl, hbase⟩⟩
  | cons outer around ih => exact List.forall_mem_cons.mpr ⟨rfl, ih outer.1⟩

end Focus

/-- With an open node above each of them, the frames of a position are linked to it
unless an `ELSE` has opened them again. -/
theorem Position.linksOpen_frames (line : Nat) (position : Position) :
    ∀ frame ∈ position.frames line, frame.LinksOpen := by
  have hlevel := position.level.linksOpen_frames line position.around
  cases hfocus : position.focus with
  | phrase =>
      rw [frames_of_focus line hfocus]
      exact hlevel
  | head headLine =>
      rw [frames_of_focus line hfocus]
      exact List.forall_mem_cons.mpr ⟨rfl, hlevel⟩
  | exprs anchor around done =>
      rw [frames_of_focus line hfocus]
      exact Focus.linksOpen_exprFrames _ hlevel anchor around done

/-! ## Links of builders -/

namespace Stack

variable (name : String) (line : Nat)

/-- The innermost node is linked if it is a script or block that ends in a conditional. -/
theorem current_settle (top : Frame) (outer : Stack) (child : Nat) :
    ((script name line (top.settle :: outer)).node (size outer)).current = some child ↔
      ((script name line (top.settle :: outer)).children (size outer)).getLast? = some child ∧
        top.kind.isConditional = false ∧
          (script name line (top.settle :: outer)).isConditional child = true := by
  have hnode := node_frame name line [] top.settle outer
  rw [List.nil_append] at hnode
  have hchildren : (script name line (top.settle :: outer)).children (size outer) =
      Branch.forestIds (size outer + 1) top.closed := by
    rw [Script.children, hnode]
    exact List.append_nil _
  have hcurrent : ((script name line (top.settle :: outer)).node (size outer)).current =
      if top.settle.linked then (Branch.forestIds (size outer + 1) top.closed).getLast?
      else none := by
    rw [hnode, ← hchildren, Script.children, hnode]
    rfl
  rw [hcurrent, hchildren]
  rcases List.eq_nil_or_concat top.closed with hclosed | ⟨front, last, hclosed⟩
  · simp [hclosed]
  · rw [List.concat_eq_append] at hclosed
    -- The last child is the last branch, so they are of one kind.
    have hforest := hasForest_frame name line [] top.settle outer
    rw [show top.settle.closed = front ++ [last] from hclosed, List.nil_append] at hforest
    have hkind : (script name line (top.settle :: outer)).isConditional
        (size outer + 1 + Branch.forestSize front) = last.isConditional := by
      rw [Script.isConditional, hforest.last.node_eq.1]
      cases last with
      | node kind nodeLine children => rfl
    have hlast : (Branch.forestIds (size outer + 1) top.closed).getLast? =
        some (size outer + 1 + Branch.forestSize front) := by
      rw [hclosed, Branch.forestIds_append]
      exact List.getLast?_concat
    have hlinked : top.settle.linked = (!top.kind.isConditional && last.isConditional) := by
      simp [Frame.settle, hclosed]
    rw [hlast, hlinked]
    constructor
    case mp =>
      intro hlink
      split at hlink
      next hboth =>
        obtain ⟨hcontainer, hconditional⟩ := Bool.and_eq_true_iff.mp hboth
        obtain rfl := Option.some.inj hlink
        exact ⟨rfl, by simpa using hcontainer, hkind.trans hconditional⟩
      next => cases hlink
    case mpr =>
      rintro ⟨hchild, hcontainer, hconditional⟩
      obtain rfl := Option.some.inj hchild
      rw [hkind] at hconditional
      rw [if_pos (by rw [hcontainer, hconditional]; rfl)]

end Stack

namespace Builder

/-- Whether a node keeps the link to its last child: if that is open and the node is no
conditional that an `ELSE` has opened again, and at the cursor in a script or block if it is
a conditional. -/
structure KeepsLink (builder : Builder) (id child : Nat) : Prop where
  last : (builder.script.children id).getLast? = some child
  keeps : (id ∈ builder.script.ancestors builder.cursor ∧
      (builder.script.phase? id).any Phase.isFilled = false) ∨
    id = builder.cursor ∧ builder.kind.isConditional = false ∧
      builder.script.isConditional child = true

/-- Whether the cursor is in a script or block behind a conditional. -/
def BehindConditional (builder : Builder) : Prop :=
  builder.kind.isConditional = false ∧ ∃ last,
    (builder.script.children builder.cursor).getLast? = some last ∧
      builder.script.isConditional last = true

instance (builder : Builder) : Decidable builder.BehindConditional :=
  decidable_of_iff (builder.kind.isConditional = false ∧
      (builder.script.children builder.cursor).getLast?.any builder.script.isConditional = true)
    (by rw [BehindConditional, Option.any_eq_true])

end Builder

namespace Stack

variable (name : String) (line : Nat) (readingName : Bool) (maxDepth : Option Nat)

theorem ancestors_builder (top : Frame) (outer : Stack) :
    (builder name line readingName maxDepth (top :: outer)).script.ancestors
      (builder name line readingName maxDepth (top :: outer)).cursor = ids outer :=
  ancestors_frame name line [] top outer

/-- A frame further out is linked if its node is no conditional that has everything. -/
private theorem linked_iff (top : Frame) (inner : Stack) {frame : Frame} (outer : Stack)
    (hopen : frame.LinksOpen) :
    frame.linked = true ↔ ((script name line (top :: (inner ++ frame :: outer))).phase?
      (size outer)).any Phase.isFilled = false := by
  have hphase : (script name line (top :: (inner ++ frame :: outer))).phase? (size outer) =
      frame.phase? := phase?_frame name line (top :: inner) frame outer
  rw [hphase, hopen]
  cases frame.phase?.any Phase.isFilled <;> simp

/-- The links of a builder whose frames further out are linked where they are open. -/
theorem current_builder (top : Frame) {outer : Stack} (hopen : ∀ frame ∈ outer, frame.LinksOpen)
    (id child : Nat) :
    ((builder name line readingName maxDepth (top.settle :: outer)).script.node id).current =
        some child ↔
      (builder name line readingName maxDepth (top.settle :: outer)).KeepsLink id child := by
  have hancestors := ancestors_builder name line readingName maxDepth top.settle outer
  have hkind := kind_builder name line readingName maxDepth top.settle outer
  by_cases houter : id ∈ ids outer
  · obtain ⟨inner, frame, below, rfl, rfl⟩ := exists_frame_of_mem_ids houter
    have hlast := children_open name line (List.cons_ne_nil top.settle inner) frame below
    have hcurrent := current_open name line (List.cons_ne_nil top.settle inner) frame below
    have hlinked := linked_iff name line top.settle inner below (hopen frame (by simp))
    have hbefore := lt_size_of_mem_ids houter
    rw [List.cons_append] at hlast hcurrent
    constructor
    case mp =>
      intro hlink
      rw [builder, hcurrent] at hlink
      split at hlink
      next hframe =>
        exact ⟨hlast.trans hlink, .inl ⟨hancestors.symm ▸ houter, hlinked.mp hframe⟩⟩
      next => cases hlink
    case mpr =>
      rintro ⟨hchild, ⟨-, hfilled⟩ | ⟨hcursor, -⟩⟩
      · rw [builder, hcurrent, if_pos (hlinked.mpr hfilled)]
        exact hlast.symm.trans hchild
      · exact absurd hcursor (Nat.ne_of_lt hbefore)
  · by_cases htop : id = size outer
    · subst htop
      have hsettle := current_settle name line top outer child
      constructor
      case mp =>
        intro hlink
        obtain ⟨hchild, hcontainer, hconditional⟩ := hsettle.mp hlink
        exact ⟨hchild, .inr ⟨rfl, hkind.symm ▸ hcontainer, hconditional⟩⟩
      case mpr =>
        rintro ⟨hchild, ⟨hmem, -⟩ | ⟨-, hcontainer, hconditional⟩⟩
        · exact absurd (hancestors ▸ hmem) houter
        · exact hsettle.mpr ⟨hchild, hkind ▸ hcontainer, hconditional⟩
    · have hclosed : id ∉ ids (top.settle :: outer) := by
        rw [ids, List.mem_cons, not_or]
        exact ⟨htop, houter⟩
      have hnone := current_of_closed name line hclosed
      constructor
      case mp =>
        intro hlink
        rw [builder, hnone] at hlink
        cases hlink
      case mpr =>
        rintro ⟨-, ⟨hmem, -⟩ | ⟨hcursor, -⟩⟩
        · exact absurd (hancestors ▸ hmem) houter
        · exact absurd hcursor htop

/-- Where following the links of such a builder ends at the cursor. -/
theorem traces_builder (top : Frame) {outer : Stack} (hopen : ∀ frame ∈ outer, frame.LinksOpen) :
    (builder name line readingName maxDepth (top.settle :: outer)).script.Traces Script.root
        (builder name line readingName maxDepth (top.settle :: outer)).cursor ↔
      (∀ id ∈ ids outer, ((builder name line readingName maxDepth
        (top.settle :: outer)).script.phase? id).any Phase.isFilled = false) ∧
      ¬ (builder name line readingName maxDepth (top.settle :: outer)).BehindConditional := by
  have hkind := kind_builder name line readingName maxDepth top.settle outer
  refine (traces_root name line top.settle outer).trans (and_congr ?frames ?top)
  case frames =>
    constructor
    case mp =>
      intro hlinked id hmem
      obtain ⟨inner, frame, below, rfl, rfl⟩ := exists_frame_of_mem_ids hmem
      have hmem : frame ∈ inner ++ frame :: below := by simp
      exact (linked_iff name line _ inner below (hopen frame hmem)).mp (hlinked frame hmem)
    case mpr =>
      intro hfilled frame hmem
      obtain ⟨inner, below, rfl⟩ := List.append_of_mem hmem
      exact (linked_iff name line _ inner below (hopen frame hmem)).mpr
        (hfilled (size below) (size_mem_ids inner frame below))
  case top =>
    rw [Option.eq_none_iff_forall_ne_some]
    constructor
    case mp =>
      rintro hnone ⟨hcontainer, last, hlast, hconditional⟩
      exact hnone last ((current_settle name line top outer last).mpr
        ⟨hlast, hkind ▸ hcontainer, hconditional⟩)
    case mpr =>
      intro hbehind last hlink
      obtain ⟨hlast, hcontainer, hconditional⟩ :=
        (current_settle name line top outer last).mp hlink
      exact hbehind ⟨hkind.symm ▸ hcontainer, last, hlast, hconditional⟩

end Stack

namespace Builder

/-- The stack of a builder that can come about. -/
theorem Reachable.exists_stack {builder : Builder} (hreach : builder.Reachable) :
    ∃ (name : String) (line : Nat) (readingName : Bool) (maxDepth : Option Nat) (top : Frame)
      (outer : Stack), builder = Stack.builder name line readingName maxDepth
        (top.settle :: outer) ∧ ∀ frame ∈ outer, frame.LinksOpen := by
  obtain ⟨name, line, readingName, maxDepth, position, rfl, -⟩ := hreach.placedNearest
  obtain ⟨top, outer, hframes⟩ := position.frames_ne_nil line
  have hopen := position.linksOpen_frames line
  rw [hframes] at hopen
  refine ⟨name, line, readingName, maxDepth, top, outer, ?_, (List.forall_mem_cons.mp hopen).2⟩
  rw [Position.builder, Position.stack, hframes]
  rfl

/-- All links of a builder that can come about. -/
theorem Reachable.current_iff {builder : Builder} (hreach : builder.Reachable) (id child : Nat) :
    (builder.script.node id).current = some child ↔ builder.KeepsLink id child := by
  obtain ⟨name, line, readingName, maxDepth, top, outer, rfl, hopen⟩ := hreach.exists_stack
  exact Stack.current_builder name line readingName maxDepth top hopen id child

/-- Following the links of a builder that can come about ends at the cursor exactly if no
conditional around it has been opened again and it is not behind one in a script or
block. -/
theorem Reachable.traces_iff {builder : Builder} (hreach : builder.Reachable) :
    builder.script.Traces Script.root builder.cursor ↔
      (∀ id ∈ builder.script.ancestors builder.cursor,
        (builder.script.phase? id).any Phase.isFilled = false) ∧
      ¬ builder.BehindConditional := by
  obtain ⟨name, line, readingName, maxDepth, top, outer, rfl, hopen⟩ := hreach.exists_stack
  rw [Stack.ancestors_builder]
  exact Stack.traces_builder name line readingName maxDepth top hopen

end Builder

/-! ## Links of scripts -/

/-- The one link in a script that is handed out is that of the root, if the last thing in
it is a conditional. -/
theorem Parser.current_of_mem_results {lines : List String} {options : Options} {script : Script}
    (hscript : .ok script ∈ (ofLines lines options).results) (id child : Nat) :
    (script.node id).current = some child ↔
      id = Script.root ∧ script.topLevel.getLast? = some child ∧
        script.isConditional child = true := by
  obtain ⟨tokens, phrases, -, hphrases⟩ := Script.exists_items hscript
  have hkind : script.isConditional Script.root = false := by rw [hphrases]; rfl
  have hparent : script.parent? Script.root = none := by rw [hphrases]; rfl
  have hancestors : script.ancestors Script.root = [] := by rw [Script.ancestors, hparent]
  obtain ⟨builder, line, hreach, hfinish⟩ :=
    exists_finish Builder.reachable_invariant (fun _ _ => trivial) hscript
  obtain rfl := Builder.script_of_finish hfinish
  have hcursor : builder.cursor = Script.root := by
    rw [Builder.finish] at hfinish
    split at hfinish
    next hroot => exact hroot
    next => cases hfinish
  rw [hreach.current_iff]
  constructor
  case mp =>
    rintro ⟨hlast, ⟨hmem, -⟩ | ⟨rfl, -, hconditional⟩⟩
    · rw [hcursor, hancestors] at hmem
      cases hmem
    · rw [hcursor] at hlast
      exact ⟨hcursor, hlast, hconditional⟩
  case mpr =>
    rintro ⟨rfl, hlast, hconditional⟩
    exact ⟨hlast, .inr ⟨hcursor.symm, by rwa [Builder.kind, hcursor], hconditional⟩⟩

/-- Following the links from the root ends at the cursor exactly if no conditional around it
has been opened again by an `ELSE` and it is not behind a conditional in a script or block;
a node is linked to its last child as long as that is open, unless it has been opened again,
and to no other child but a conditional before the cursor.  So a script that is handed out
has one link left, from the root, if the last thing in it is a conditional, and none
otherwise. -/
theorem Parser.links_left (builder : Builder) (lines : List String) (options : Options) :
    (builder.Reachable →
      (builder.script.Traces Script.root builder.cursor ↔
        (∀ id ∈ builder.script.ancestors builder.cursor,
          (builder.script.phase? id).any Phase.isFilled = false) ∧
        ¬ builder.BehindConditional) ∧
      ∀ id child : Nat, (builder.script.node id).current = some child ↔
        builder.KeepsLink id child) ∧
      ∀ script : Script, .ok script ∈ (ofLines lines options).results → ∀ id child : Nat,
        (script.node id).current = some child ↔
          id = Script.root ∧ script.topLevel.getLast? = some child ∧
            script.isConditional child = true :=
  ⟨fun hreach => ⟨hreach.traces_iff, hreach.current_iff⟩,
    fun _ hscript => current_of_mem_results hscript⟩

/-- Behind the conditional of these lines the links do not end at the cursor, and the script
that is handed out keeps the link from its root. -/
theorem Parser.links_left_conditional :
    let parser := ofLines ["SCRIPT T", "IF (A) B;"] {}
    ∃ builder script, parser.next.2.assembler.builder = some builder ∧ builder.BehindConditional ∧
      ¬ builder.script.Traces Script.root builder.cursor ∧ .ok script ∈ parser.results ∧
        (script.node Script.root).current = some 1 := by
  intro parser
  have hbehind : parser.next.2.assembler.builder.any fun builder =>
      decide builder.BehindConditional := by
    decide +kernel
  have hparsed : parser.scripts.toOption.any fun scripts => scripts.any fun script =>
      script.topLevel.getLast? = some 1 ∧ script.isConditional 1 = true := by
    decide +kernel
  obtain ⟨builder, hbuilder, hbehind⟩ := (Option.any_eq_true _ _).mp hbehind
  obtain ⟨script, hresult, hlast⟩ := exists_mem_results hparsed
  have hreach : builder.Reachable := reachable_builder (.next .start) builder hbuilder
  obtain ⟨hbuilding, hyielded⟩ := links_left builder ["SCRIPT T", "IF (A) B;"] {}
  refine ⟨builder, script, hbuilder, of_decide_eq_true hbehind, ?_, hresult, ?_⟩
  · intro htraces
    exact ((hbuilding hreach).1.mp htraces).2 (of_decide_eq_true hbehind)
  · exact (hyielded script hresult Script.root 1).mpr ⟨rfl, by simpa using hlast⟩

end SignalScript
