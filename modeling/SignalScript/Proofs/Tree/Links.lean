import SignalScript.Proofs.Tree.Spots
import SignalScript.Proofs.Tree.Stack

/-!
# Following links

A link leads from a node to the child that was opened last.  In the table of a stack
only open nodes have one, and it leads to the next open node where there is one, so
the way along the links from the root goes along the stack until a frame is not linked.
-/

namespace SignalScript

/-- Whether the links from a node lead to one that has none. -/
inductive Script.Traces (script : Script) : Nat → Nat → Prop
  | ends {id : Nat} (hnone : (script.node id).current = none) : Traces script id id
  | follow {id next last : Nat} (hlink : (script.node id).current = some next)
      (htraces : Traces script next last) : Traces script id last

namespace Script

variable {script : Script} {id next last : Nat}

theorem traces_of_none (hnone : (script.node id).current = none) :
    script.Traces id last ↔ last = id := by
  constructor
  case mp =>
    intro htraces
    cases htraces with
    | ends _ => rfl
    | follow hlink _ =>
        rw [hnone] at hlink
        cases hlink
  case mpr =>
    rintro rfl
    exact .ends hnone

theorem traces_of_some (hlink : (script.node id).current = some next) :
    script.Traces id last ↔ script.Traces next last := by
  constructor
  case mp =>
    intro htraces
    cases htraces with
    | ends hnone =>
        rw [hnone] at hlink
        cases hlink
    | follow hother htraces =>
        rw [hother] at hlink
        rwa [← Option.some.inj hlink]
  case mpr => exact .follow hlink

end Script

namespace Branch

/-- No node of a complete branch has a link. -/
theorem current_forestRows (parent first : Nat) (branches : List Branch) :
    ∀ row ∈ forestRows parent first branches, row.current = none := by
  rw [← map_row_forestSpots .script parent 0 first branches]
  intro row hrow
  obtain ⟨spot, -, rfl⟩ := List.mem_map.mp hrow
  rfl

end Branch

namespace Stack

theorem lt_size_of_mem_ids {stack : Stack} {id : Nat} (hid : id ∈ ids stack) : id < size stack := by
  induction stack with
  | nil => simp [ids] at hid
  | cons frame outer ih =>
      rw [ids, List.mem_cons] at hid
      rw [size]
      rcases hid with rfl | hid
      · omega
      · have hlt := ih hid
        omega

theorem exists_frame_of_mem_ids {stack : Stack} {id : Nat} (hid : id ∈ ids stack) :
    ∃ inner frame outer, stack = inner ++ frame :: outer ∧ id = size outer := by
  induction stack with
  | nil => simp [ids] at hid
  | cons frame outer ih =>
      rcases List.mem_cons.mp hid with heq | hid
      · exact ⟨[], frame, outer, rfl, heq⟩
      · obtain ⟨inner, other, below, rfl, heq⟩ := ih hid
        exact ⟨frame :: inner, other, below, rfl, heq⟩

theorem size_mem_ids (inner : Stack) (frame : Frame) (outer : Stack) :
    size outer ∈ ids (inner ++ frame :: outer) := by
  rw [ids_append]
  exact List.mem_append_right _ (.head _)

private theorem current_frameRows {frame : Frame} {outer : Stack} {isOpen : Bool} {index : Nat}
    (hbelow : index ≠ 0) {row : Node} (hrow : (frameRows frame outer isOpen)[index]? = some row) :
    row.current = none := by
  obtain ⟨position, rfl⟩ := Nat.exists_eq_succ_of_ne_zero hbelow
  rw [frameRows, List.getElem?_cons_succ] at hrow
  exact Branch.current_forestRows _ _ _ row (List.mem_of_getElem? hrow)

private theorem current_behind {frame : Frame} {outer : Stack} {isOpen : Bool} {id : Nat}
    (houter : ∀ row, (innerRows outer)[id]? = some row → row.current = none)
    (hframe : id ≠ size outer) {row : Node}
    (hrow : (innerRows outer ++ frameRows frame outer isOpen)[id]? = some row) :
    row.current = none := by
  by_cases hid : id < size outer
  · rw [List.getElem?_append_left (by simpa using hid)] at hrow
    exact houter row hrow
  · rw [List.getElem?_append_right (by simpa using hid), length_innerRows] at hrow
    exact current_frameRows (by omega) hrow

private theorem current_innerRows {stack : Stack} {id : Nat} (hclosed : id ∉ ids stack) :
    ∀ row, (innerRows stack)[id]? = some row → row.current = none := by
  induction stack with
  | nil => simp [innerRows]
  | cons frame outer ih =>
      obtain ⟨hframe, houter⟩ := not_or.mp (mt List.mem_cons.mpr hclosed)
      intro row hrow
      exact current_behind (ih houter) hframe hrow

variable (name : String) (line : Nat)

/-- Only open nodes have links. -/
theorem current_of_closed {stack : Stack} {id : Nat} (hclosed : id ∉ ids stack) :
    ((script name line stack).node id).current = none := by
  have hget : (script name line stack).nodes[id]? = (rows stack)[id]? := by simp [script]
  rw [Script.node, hget]
  cases hrow : (rows stack)[id]? with
  | none => rfl
  | some row =>
      cases stack with
      | nil => simp [rows] at hrow
      | cons frame outer =>
          obtain ⟨hframe, houter⟩ := not_or.mp (mt List.mem_cons.mpr hclosed)
          exact current_behind (current_innerRows houter) hframe hrow

/-- A node with an open child is linked to it, or to nothing. -/
theorem current_open {inner : Stack} (hinner : inner ≠ []) (frame : Frame) (outer : Stack) :
    ((script name line (inner ++ frame :: outer)).node (size outer)).current =
      if frame.linked then some (size (frame :: outer)) else none := by
  have hopen : inner.isEmpty = false := List.isEmpty_eq_false_iff.mpr hinner
  rw [node_frame, hopen]
  simp only [Frame.row, Frame.children, Bool.not_false, if_true, List.getLast?_concat]
  rw [show size outer + 1 + Branch.forestSize frame.closed = size (frame :: outer) from rfl]

theorem children_open {inner : Stack} (hinner : inner ≠ []) (frame : Frame) (outer : Stack) :
    ((script name line (inner ++ frame :: outer)).children (size outer)).getLast? =
      some (size (frame :: outer)) := by
  have hopen : inner.isEmpty = false := List.isEmpty_eq_false_iff.mpr hinner
  rw [Script.children, node_frame, hopen]
  simp only [Frame.row, Frame.children, Bool.not_false, if_true, List.getLast?_concat]
  rw [show size outer + 1 + Branch.forestSize frame.closed = size (frame :: outer) from rfl]

/-- The way along the links comes to a frame if all frames further out are linked. -/
private theorem traces_base {inner : Stack} (hinner : inner ≠ []) (base : Stack) {last : Nat}
    (hlast : size base ≤ last) :
    (script name line (inner ++ base)).Traces Script.root last ↔
      (∀ frame ∈ base, frame.linked = true) ∧
        (script name line (inner ++ base)).Traces (size base) last := by
  induction base generalizing inner with
  | nil =>
      have hroot : size [] = Script.root := rfl
      simp [hroot]
  | cons frame outer ih =>
      have hlt : size outer < size (frame :: outer) := by
        simp only [size]
        omega
      have houter := @ih (inner ++ [frame]) (by simp) (by omega)
      have hcurrent := current_open name line hinner frame outer
      rw [List.append_assoc, List.singleton_append] at houter
      rw [houter, List.forall_mem_cons, and_comm (a := frame.linked = true), and_assoc]
      refine and_congr_right fun _ => ?_
      cases hlinked : frame.linked with
      | false =>
          rw [hlinked, if_neg Bool.false_ne_true] at hcurrent
          rw [Script.traces_of_none hcurrent]
          simp only [Bool.false_eq_true, false_and, iff_false]
          omega
      | true =>
          rw [hlinked, if_pos rfl] at hcurrent
          rw [Script.traces_of_some hcurrent]
          simp

/-- The way along the links ends at the innermost frame if it has no link itself. -/
private theorem traces_top (top : Frame) (outer : Stack) :
    (script name line (top :: outer)).Traces (size outer) (size outer) ↔
      ((script name line (top :: outer)).node (size outer)).current = none := by
  cases hcurrent : ((script name line (top :: outer)).node (size outer)).current with
  | none => simpa using (Script.traces_of_none hcurrent).mpr rfl
  | some child =>
      -- The link leads to a complete child, which has none.
      have hnode := node_frame name line [] top outer
      rw [List.nil_append] at hnode
      have hmem : child ∈ Branch.forestIds (size outer + 1) top.closed := by
        rw [hnode, Frame.row] at hcurrent
        dsimp only at hcurrent
        split at hcurrent
        · simpa [Frame.children] using List.mem_of_getLast? hcurrent
        · cases hcurrent
      have hlt : size outer < child := by
        obtain ⟨index, hindex⟩ := List.getElem?_of_mem hmem
        rw [Branch.getElem?_forestIds] at hindex
        obtain ⟨branch, -, rfl⟩ := Option.map_eq_some_iff.mp hindex
        omega
      have hclosed : child ∉ ids (top :: outer) := by
        intro hopen
        rcases List.mem_cons.mp hopen with heq | houter
        · omega
        · have hbefore := lt_size_of_mem_ids houter
          omega
      have hnone := current_of_closed name line hclosed
      rw [Script.traces_of_some hcurrent, Script.traces_of_none hnone]
      simp only [reduceCtorEq, iff_false]
      omega

/-- The links lead from the root to the innermost node and no further if all other frames
are linked and it has no link. -/
theorem traces_root (top : Frame) (outer : Stack) :
    (script name line (top :: outer)).Traces Script.root (size outer) ↔
      (∀ frame ∈ outer, frame.linked = true) ∧
        ((script name line (top :: outer)).node (size outer)).current = none := by
  rw [← traces_top]
  exact traces_base name line (List.cons_ne_nil top []) outer (Nat.le_refl _)

end Stack

end SignalScript
