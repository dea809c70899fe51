import SignalScript.Proofs.Tree.Branch
import SignalScript.Tree.Conditionals

/-!
# Open nodes as a stack

While a script is being built, the nodes that can still grow are those on the
way from the root to the one at the cursor.  They form a stack of frames, the
cursor's node on top, each with the branches below it that are complete.  All
rows of the table can be read off such a stack, and what the builder does to the
table is a change of the frames: a new node is a new frame, and a frame that is
complete becomes the last branch of the one below, which changes no row.
-/

namespace SignalScript

/-- A node that can still grow. -/
structure Frame where
  kind : NodeKind
  line : Nat
  /-- Whether the last child is linked as the open one. -/
  linked : Bool := false
  /-- Whether building goes on here after an alternate. -/
  marked : Bool := false
  /-- The complete branches below the node. -/
  closed : List Branch := []
  deriving Inhabited, Repr

namespace Frame

/-- The children of the node: its complete branches, and the open node above
the frame if there is one. -/
def children (frame : Frame) (id : Nat) (isOpen : Bool) : List Nat :=
  Branch.forestIds (id + 1) frame.closed ++
    if isOpen then [id + 1 + Branch.forestSize frame.closed] else []

/-- The row of the node. -/
def row (frame : Frame) (parent : Option Nat) (id : Nat) (isOpen : Bool) : Node where
  kind := frame.kind
  parent := parent
  children := frame.children id isOpen
  current := if frame.linked then (frame.children id isOpen).getLast? else none
  line := frame.line
  alternateReturn := frame.marked

/-- The branch that the frame becomes when it is complete. -/
def branch (frame : Frame) : Branch :=
  .node frame.kind frame.line frame.closed

/-- The frame with its last child linked as the open one. -/
def link (frame : Frame) : Frame := { frame with linked := true }

/-- The frame with one more complete branch. -/
def add (frame : Frame) (branch : Branch) : Frame :=
  { frame with closed := frame.closed ++ [branch] }

end Frame

/-- The open nodes, the innermost first. -/
abbrev Stack := List Frame

namespace Stack

/-- The number of rows, which is also the id of the next node. -/
def size : Stack → Nat
  | [] => 0
  | frame :: outer => size outer + 1 + Branch.forestSize frame.closed

/-- The id of the innermost node. -/
def topId? : Stack → Option Nat
  | [] => none
  | _ :: outer => some (size outer)

/-- The rows of a frame and of the branches below it. -/
def frameRows (frame : Frame) (outer : Stack) (isOpen : Bool) : List Node :=
  frame.row (topId? outer) (size outer) isOpen ::
    Branch.forestRows (size outer) (size outer + 1) frame.closed

/-- The rows of open nodes that all have an open child. -/
def innerRows : Stack → List Node
  | [] => []
  | frame :: outer => innerRows outer ++ frameRows frame outer true

/-- All rows of a stack. -/
def rows : Stack → List Node
  | [] => []
  | frame :: outer => innerRows outer ++ frameRows frame outer false

/-- The ids of open nodes, the innermost first. -/
def ids : Stack → List Nat
  | [] => []
  | _ :: outer => size outer :: ids outer

/-- The script that a stack is the table of. -/
def script (name : String) (line : Nat) (stack : Stack) : Script :=
  { name, line, nodes := stack.rows.toArray }

variable (name : String) (line : Nat)

@[simp]
theorem length_frameRows (frame : Frame) (outer : Stack) (isOpen : Bool) :
    (frameRows frame outer isOpen).length = Branch.forestSize frame.closed + 1 := by
  simp [frameRows]

@[simp]
theorem length_innerRows (stack : Stack) : (innerRows stack).length = size stack := by
  induction stack with
  | nil => rfl
  | cons frame outer ih => simp [innerRows, size, ih]; omega

@[simp]
theorem length_rows (stack : Stack) : (rows stack).length = size stack := by
  cases stack with
  | nil => rfl
  | cons frame outer => simp [rows, size]; omega

@[simp]
theorem nextId_script (stack : Stack) : (script name line stack).nextId = size stack := by
  simp [script, Script.nextId]

@[simp]
theorem nodeCount_script (stack : Stack) : (script name line stack).nodeCount = size stack := by
  simp [script, Script.nodeCount]

/-- Frames further in only add rows behind. -/
theorem innerRows_append (inner outer : Stack) :
    ∃ tail, innerRows (inner ++ outer) = innerRows outer ++ tail := by
  induction inner with
  | nil => exact ⟨[], by simp⟩
  | cons frame rest ih =>
      obtain ⟨tail, htail⟩ := ih
      exact ⟨tail ++ frameRows frame (rest ++ outer) true, by simp [innerRows, htail]⟩

theorem size_append_congr (inner : Stack) {left right : Stack} (hsize : size left = size right) :
    size (inner ++ left) = size (inner ++ right) := by
  induction inner with
  | nil => exact hsize
  | cons frame rest ih => simp [size, ih]

/-! ## Looking nodes up -/

private theorem node_of_rows {script : Script} {before after : List Node} {found : Node}
    (hrows : script.nodes.toList = before ++ found :: after) :
    script.node before.length = found := by
  have hget : script.nodes[before.length]? = some found := by
    rw [← Array.getElem?_toList, hrows]
    simp
  simp [Script.node, hget]

/-- The row of a frame. -/
theorem node_frame (inner : Stack) (frame : Frame) (outer : Stack) :
    (script name line (inner ++ frame :: outer)).node (size outer) =
      frame.row (topId? outer) (size outer) (!inner.isEmpty) := by
  cases inner with
  | nil =>
      have hrows : (script name line (frame :: outer)).nodes.toList =
          innerRows outer ++ frame.row (topId? outer) (size outer) false ::
            Branch.forestRows (size outer) (size outer + 1) frame.closed := by
        simp [script, rows, frameRows]
      simpa using node_of_rows hrows
  | cons top inner =>
      obtain ⟨tail, htail⟩ := innerRows_append inner (frame :: outer)
      have hrows : (script name line (top :: inner ++ frame :: outer)).nodes.toList =
          innerRows outer ++ frame.row (topId? outer) (size outer) true ::
            (Branch.forestRows (size outer) (size outer + 1) frame.closed ++ tail ++
              frameRows top (inner ++ frame :: outer) false) := by
        simp [script, rows, htail, innerRows, frameRows]
      simpa using node_of_rows hrows

theorem kind_frame (inner : Stack) (frame : Frame) (outer : Stack) :
    (script name line (inner ++ frame :: outer)).kind (size outer) = frame.kind := by
  simp [Script.kind, node_frame, Frame.row]

theorem parent?_frame (inner : Stack) (frame : Frame) (outer : Stack) :
    (script name line (inner ++ frame :: outer)).parent? (size outer) = topId? outer := by
  simp [Script.parent?, node_frame, Frame.row]

theorem phase?_frame (inner : Stack) (frame : Frame) (outer : Stack) :
    (script name line (inner ++ frame :: outer)).phase? (size outer) =
      frame.kind.conditional?.map (·.phase) := by
  simp [Script.phase?, Script.conditional?, kind_frame]

theorem isConditional_frame (inner : Stack) (frame : Frame) (outer : Stack) :
    (script name line (inner ++ frame :: outer)).isConditional (size outer) =
      frame.kind.isConditional := by
  simp [Script.isConditional, kind_frame]

/-- The children of the innermost node, if it is a conditional. -/
theorem slot?_frame (frame : Frame) (outer : Stack) (position : Nat) :
    (script name line (frame :: outer)).slot? (size outer) position =
      if frame.kind.isConditional then
        (Branch.forestIds (size outer + 1) frame.closed)[position]?
      else none := by
  have hnode := node_frame name line [] frame outer
  rw [List.nil_append] at hnode
  simp [Script.slot?, Script.kind, Script.children, hnode, Frame.row, Frame.children]

/-- The ancestors of an open node are the open nodes further out. -/
theorem ancestors_frame (inner : Stack) (frame : Frame) (outer : Stack) :
    (script name line (inner ++ frame :: outer)).ancestors (size outer) = ids outer := by
  induction outer generalizing inner frame with
  | nil =>
      rw [Script.ancestors, parent?_frame]
      rfl
  | cons below outer ih =>
      have hlt : size outer < size (below :: outer) := by
        simp only [size]
        omega
      have hstack : inner ++ frame :: below :: outer = (inner ++ [frame]) ++ below :: outer := by
        simp
      rw [Script.ancestors, parent?_frame]
      simp only [topId?, hlt, if_true, ids]
      rw [hstack, ih]

/-! ## Changing frames -/

/-- A change of a row that is the same as a change of its frame. -/
structure ActsAs (change : Node → Node) (frameChange : Frame → Frame) : Prop where
  closed (frame : Frame) : (frameChange frame).closed = frame.closed
  row (frame : Frame) (parent : Option Nat) (id : Nat) (isOpen : Bool) :
    change (frame.row parent id isOpen) = (frameChange frame).row parent id isOpen

private theorem modify_append_cons (before after : List Node) (found : Node) (f : Node → Node) :
    (before ++ found :: after).modify before.length f = before ++ f found :: after := by
  rw [List.modify_eq_take_cons_drop (by simp)]
  simp

private theorem modify_append_left (before after : List Node) (index : Nat) (f : Node → Node)
    (hindex : index < before.length) :
    (before ++ after).modify index f = before.modify index f ++ after := by
  rw [List.modify_eq_take_cons_drop hindex, List.modify_eq_take_cons_drop (by simp; omega)]
  rw [List.take_append_of_le_length (by omega), List.drop_append_of_le_length (by omega)]
  rw [List.getElem_append_left hindex]
  simp

section Changes

variable {change : Node → Node} {frameChange : Frame → Frame}

private theorem frameRows_modify (hacts : ActsAs change frameChange) (frame : Frame)
    (outer : Stack) (isOpen : Bool) :
    (innerRows outer ++ frameRows frame outer isOpen).modify (size outer) change =
      innerRows outer ++ frameRows (frameChange frame) outer isOpen := by
  have hmodify := modify_append_cons (innerRows outer)
    (Branch.forestRows (size outer) (size outer + 1) frame.closed)
    (frame.row (topId? outer) (size outer) isOpen) change
  rw [length_innerRows] at hmodify
  rw [frameRows, hmodify, hacts.row, frameRows, hacts.closed]

private theorem size_lt (inner : Stack) (frame : Frame) (outer : Stack) :
    size outer < size (inner ++ frame :: outer) := by
  induction inner with
  | nil => simp only [List.nil_append, size]; omega
  | cons top inner ih => simp only [List.cons_append, size]; omega

private theorem size_change (hacts : ActsAs change frameChange) (inner : Stack) (frame : Frame)
    (outer : Stack) :
    size (inner ++ frameChange frame :: outer) = size (inner ++ frame :: outer) :=
  size_append_congr inner (by simp [size, hacts.closed])

private theorem frameRows_change (hacts : ActsAs change frameChange) (top : Frame) (inner : Stack)
    (frame : Frame) (outer : Stack) (isOpen : Bool) :
    frameRows top (inner ++ frameChange frame :: outer) isOpen =
      frameRows top (inner ++ frame :: outer) isOpen := by
  have hsize := size_change hacts inner frame outer
  have htop : topId? (inner ++ frameChange frame :: outer) =
      topId? (inner ++ frame :: outer) := by
    cases inner with
    | nil => rfl
    | cons below inner => simp [topId?, size_change hacts inner frame outer]
  simp only [frameRows, hsize, htop]

private theorem innerRows_modify (hacts : ActsAs change frameChange) (inner : Stack)
    (frame : Frame) (outer : Stack) :
    (innerRows (inner ++ frame :: outer)).modify (size outer) change =
      innerRows (inner ++ frameChange frame :: outer) := by
  induction inner with
  | nil => exact frameRows_modify hacts frame outer true
  | cons top inner ih =>
      have hlt := size_lt inner frame outer
      simp only [List.cons_append, innerRows]
      rw [modify_append_left _ _ _ _ (by simpa using hlt), ih, frameRows_change hacts]

/-- Changing the row of an open node changes its frame. -/
theorem script_modify (hacts : ActsAs change frameChange) (inner : Stack) (frame : Frame)
    (outer : Stack) :
    (script name line (inner ++ frame :: outer)).modify (size outer) change =
      script name line (inner ++ frameChange frame :: outer) := by
  have hrows : (rows (inner ++ frame :: outer)).modify (size outer) change =
      rows (inner ++ frameChange frame :: outer) := by
    cases inner with
    | nil => exact frameRows_modify hacts frame outer false
    | cons top inner =>
        have hlt := size_lt inner frame outer
        simp only [List.cons_append, rows]
        rw [modify_append_left _ _ _ _ (by simpa using hlt), innerRows_modify hacts,
          frameRows_change hacts]
  simp [script, Script.modify, hrows]

/-- The ids of frames that stand on a stack. -/
def idsOver (base : Stack) : Stack → List Nat
  | [] => []
  | _ :: rest => size (rest ++ base) :: idsOver base rest

theorem ids_append (chain base : Stack) : ids (chain ++ base) = idsOver base chain ++ ids base := by
  induction chain with
  | nil => rfl
  | cons frame rest ih => simp [ids, idsOver, ih]

/-- Changing several rows changes several frames. -/
theorem script_modify_all (hacts : ActsAs change frameChange) (inner chain base : Stack) :
    (idsOver base chain).foldl (fun script id => script.modify id change)
        (script name line (inner ++ chain ++ base)) =
      script name line (inner ++ chain.map frameChange ++ base) := by
  induction chain generalizing inner with
  | nil => rfl
  | cons frame rest ih =>
      have hfirst := script_modify name line hacts inner frame (rest ++ base)
      have hrest := ih (inner ++ [frameChange frame])
      simp only [List.append_assoc, List.cons_append, List.nil_append] at hfirst hrest ⊢
      simp only [idsOver, List.foldl_cons, hfirst, hrest, List.map_cons, List.cons_append]

end Changes

/-! ## Adding nodes and completing them -/

/-- A new node is a row at the end and a child of the innermost node. -/
private theorem push_rows (frame : Frame) (outer : Stack) (kind : NodeKind) (nodeLine : Nat) :
    (script name line (frame :: outer)).push (size outer) kind nodeLine =
      { name, line, nodes :=
          (innerRows outer ++
            (frame.row (topId? outer) (size outer) false).addChild (size (frame :: outer))
              kind.isLeaf ::
            (Branch.forestRows (size outer) (size outer + 1) frame.closed ++
              [{ kind, parent := some (size outer), line := nodeLine }])).toArray } := by
  have hmodify := modify_append_cons (innerRows outer)
    (Branch.forestRows (size outer) (size outer + 1) frame.closed ++
      [{ kind, parent := some (size outer), line := nodeLine }])
    (frame.row (topId? outer) (size outer) false)
    (·.addChild (size (frame :: outer)) kind.isLeaf)
  rw [length_innerRows] at hmodify
  simp only [Script.push, Script.modify, nextId_script]
  simp [script, rows, frameRows, hmodify]

/-- A new node that is no leaf is a new frame. -/
theorem script_push_open (frame : Frame) (outer : Stack) (kind : NodeKind) (nodeLine : Nat)
    (hkind : kind.isLeaf = false) :
    (script name line (frame :: outer)).push (size outer) kind nodeLine =
      script name line ({ kind, line := nodeLine } :: frame.link :: outer) := by
  rw [push_rows, hkind]
  simp [script, rows, innerRows, frameRows, Frame.row, Frame.children, Frame.link, Node.addChild,
    size, topId?]

/-- A new leaf is a complete branch at once. -/
theorem script_push_leaf (frame : Frame) (outer : Stack) (kind : NodeKind) (nodeLine : Nat)
    (hkind : kind.isLeaf = true) (hlinked : frame.linked = false) :
    (script name line (frame :: outer)).push (size outer) kind nodeLine =
      script name line (frame.add (.node kind nodeLine []) :: outer) := by
  rw [push_rows, hkind]
  simp [script, rows, frameRows, Frame.row, Frame.children, Frame.add, Node.addChild, size,
    hlinked, Branch.forestIds_append, Branch.forestRows_append, Branch.forestIds,
    Branch.forestRows, Branch.rows]

/-- A frame that is complete is a branch of the one below. -/
theorem script_add_branch (frame below : Frame) (outer : Stack) (hlinked : frame.linked = false)
    (hmarked : frame.marked = false) :
    script name line (frame :: below :: outer) =
      script name line (below.add frame.branch :: outer) := by
  simp [script, rows, innerRows, frameRows, Frame.row, Frame.children, Frame.add, Frame.branch,
    size, topId?, hlinked, hmarked, Branch.forestIds_append, Branch.forestRows_append,
    Branch.forestIds, Branch.forestRows, Branch.rows, Nat.add_assoc, Nat.add_comm 1]

/-! ## Conditionals on a stack -/

/-- What the rows of the frames of a chain say, frame by frame. -/
theorem map_idsOver {α : Type} (view : Node → α) (frameView : Frame → α)
    (hview : ∀ frame parent id isOpen, view (frame.row parent id isOpen) = frameView frame)
    (inner chain base : Stack) :
    (idsOver base chain).map
        (fun id => view ((script name line (inner ++ (chain ++ base))).node id)) =
      chain.map frameView := by
  induction chain generalizing inner with
  | nil => rfl
  | cons frame rest ih =>
      have hfirst := node_frame name line inner frame (rest ++ base)
      have hrest := ih (inner ++ [frame])
      simp only [List.append_assoc, List.cons_append, List.nil_append] at hrest
      simp only [idsOver, List.map_cons, List.cons_append, hfirst, hview, hrest]

section Chain

variable {inner chain : Stack} {frame container : Frame} {outer : Stack}

private theorem isConditional_idsOver (hchain : ∀ frame ∈ chain, frame.kind.isConditional = true) :
    ∀ id ∈ idsOver (container :: outer) chain,
      (script name line (inner ++ frame :: (chain ++ container :: outer))).isConditional id =
        true := by
  intro id hid
  have hmap := map_idsOver name line (fun node => node.kind.isConditional)
    (fun frame => frame.kind.isConditional) (fun _ _ _ _ => rfl) (inner ++ [frame]) chain
    (container :: outer)
  have hmem := List.mem_map_of_mem (f := fun id => ((script name line
    (inner ++ [frame] ++ (chain ++ container :: outer))).node id).kind.isConditional) hid
  rw [hmap] at hmem
  obtain ⟨found, hfound, heq⟩ := List.mem_map.mp hmem
  rw [hchain found hfound] at heq
  simpa [Script.isConditional, Script.kind] using heq.symm

private theorem not_isConditional_container (hcontainer : container.kind.isConditional = false) :
    (script name line (inner ++ frame :: (chain ++ container :: outer))).isConditional
      (size outer) = false := by
  have hkind := isConditional_frame name line
    (inner ++ frame :: chain) container outer
  simpa [hcontainer] using hkind

theorem ancestors_chain :
    (script name line (inner ++ frame :: (chain ++ container :: outer))).ancestors
        (size (chain ++ container :: outer)) =
      idsOver (container :: outer) chain ++ size outer :: ids outer := by
  have hancestors := ancestors_frame name line inner frame
    (chain ++ container :: outer)
  rw [ids_append] at hancestors
  simpa [ids] using hancestors

/-- The conditionals around a frame are the frames of its chain. -/
theorem enclosingConditionals_chain (hchain : ∀ frame ∈ chain, frame.kind.isConditional = true)
    (hcontainer : container.kind.isConditional = false) :
    (script name line (inner ++ frame :: (chain ++ container :: outer))).enclosingConditionals
        (size (chain ++ container :: outer)) =
      idsOver (container :: outer) chain := by
  rw [Script.enclosingConditionals, ancestors_chain,
    List.takeWhile_append_of_pos (isConditional_idsOver _ _ hchain), List.takeWhile_cons_of_neg]
  · simp
  · simp [not_isConditional_container _ _ hcontainer]

/-- The container of a frame is the node below its chain. -/
theorem container?_chain (hchain : ∀ frame ∈ chain, frame.kind.isConditional = true)
    (hcontainer : container.kind.isConditional = false) :
    (script name line (inner ++ frame :: (chain ++ container :: outer))).container?
        (size (chain ++ container :: outer)) =
      some (size outer) := by
  have hnone : (idsOver (container :: outer) chain).find? (fun id =>
      !(script name line (inner ++ frame :: (chain ++ container :: outer))).isConditional id) =
        none := by
    rw [List.find?_eq_none]
    intro id hid
    simp [isConditional_idsOver _ _ hchain id hid]
  rw [Script.container?, ancestors_chain, List.find?_append, hnone, Option.none_or,
    List.find?_cons_of_pos]
  simp [not_isConditional_container _ _ hcontainer]

end Chain

end Stack

end SignalScript
