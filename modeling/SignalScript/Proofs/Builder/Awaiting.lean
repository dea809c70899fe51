import SignalScript.Proofs.Builder.Levels
import SignalScript.Proofs.Tree.Growth
import SignalScript.Proofs.Tree.Quiet

/-!
# Which nodes have an open `ELSE` at their end

On a stack the ways through bodies and alternates lead from one open conditional to the
next, and nowhere else is an alternate waited for.  So all that a script or block knows of
open alternates is in the run of conditionals right above it, and where its mark agrees
with these, marks and ways agree in the whole table.
-/

namespace SignalScript

namespace Script

/-- Whether a way from the last child of a node leads to a conditional that waits for its
alternate. -/
def AwaitsAt (script : Script) (id target : Nat) : Prop :=
  ∃ last, (script.children id).getLast? = some last ∧ script.LeadsToAwaiting last target

/-- Whether a node is a script or block. -/
def IsContainer (script : Script) (id : Nat) : Prop :=
  script.kind id = .script ∨ script.kind id = .block

/-- Whether a node is marked just if it is a script or block at whose end an alternate is
open, and then only one is. -/
structure MarkedRight (script : Script) (id : Nat) : Prop where
  marked (hmark : (script.node id).alternateReturn = true) :
    script.IsContainer id ∧ ∃ target, ∀ other, script.AwaitsAt id other ↔ other = target
  unmarked (hmark : (script.node id).alternateReturn = false)
    (hcontainer : script.IsContainer id) (target : Nat) : ¬ script.AwaitsAt id target

variable {script : Script} {id : Nat}

/-- A mark that is not there is right if no alternate is open. -/
theorem markedRight_of_unmarked (hmark : (script.node id).alternateReturn = false)
    (hawaits : script.IsContainer id → ∀ target, ¬ script.AwaitsAt id target) :
    script.MarkedRight id where
  marked := by
    rw [hmark]
    exact nofun
  unmarked _ := hawaits

/-- No way leads on from what is no conditional. -/
theorem not_leads_of_kind (hkind : (script.kind id).isConditional = false) (target : Nat) :
    ¬ script.LeadsToAwaiting id target := by
  have hslot : ∀ position, script.slot? id position = none := by
    intro position
    rw [slot?, hkind]
    rfl
  rintro ⟨hleads, hphase⟩
  cases hleads with
  | here =>
      rw [phase?, conditional?] at hphase
      cases hcases : script.kind id <;>
        simp [hcases, NodeKind.isConditional, NodeKind.conditional?] at hkind hphase
  | body hbody hrest => simp [body?, hslot] at hbody
  | alternate halternate hrest => simp [alternate?, hslot] at halternate

theorem QuietBetween.markedRight {first last : Nat} (hquiet : script.QuietBetween first last)
    (hle : first ≤ id) (hlt : id < last) : script.MarkedRight id := by
  refine markedRight_of_unmarked (hquiet.node id hle hlt).unmarked ?_
  rintro - target ⟨child, hchild, hleads⟩
  obtain ⟨hfirst, hlast⟩ := hquiet.child id hle hlt child (List.mem_of_getLast? hchild)
  exact hquiet.not_leads hfirst hlast target hleads

end Script

namespace Frame

def Quiet (frame : Frame) : Prop := Branch.ForestQuiet frame.closed

/-- Whether a frame is that of a conditional on the way into its body or alternate. -/
structure IsArm (frame : Frame) : Prop where
  conditional : frame.kind.isConditional = true
  unmarked : frame.marked = false
  quiet : frame.Quiet
  /-- It has its condition, and may have its body. -/
  slot : frame.closed.length = 1 ∨ frame.closed.length = 2

/-- Whether no way leads through a frame: it is that of no conditional, or of one without a
condition. -/
structure Stops (frame : Frame) : Prop where
  quiet : frame.Quiet
  phase : frame.phase? ≠ some .awaitingAlternate
  slot : frame.kind.isConditional = true → frame.closed = []

/-- Whether a frame has no mark and needs none. -/
structure Plain (frame : Frame) : Prop where
  unmarked : frame.marked = false
  quiet : frame.Quiet
  kind : ¬ (frame.kind = .script ∨ frame.kind = .block)

theorem IsArm.plain {frame : Frame} (harm : frame.IsArm) : frame.Plain where
  unmarked := harm.unmarked
  quiet := harm.quiet
  kind := by
    have hconditional := harm.conditional
    rintro (hkind | hkind)
    · simp [hkind, NodeKind.isConditional] at hconditional
    · simp [hkind, NodeKind.isConditional] at hconditional

theorem stops_of_kind {frame : Frame} (hquiet : frame.Quiet)
    (hkind : frame.kind.isConditional = false) : frame.Stops where
  quiet := hquiet
  phase := by
    rw [phase?]
    cases hcases : frame.kind <;>
      simp [hcases, NodeKind.isConditional, NodeKind.conditional?] at hkind ⊢
  slot := by
    intro hconditional
    rw [hkind] at hconditional
    cases hconditional

theorem IsArm.settle {frame : Frame} (harm : frame.IsArm) : frame.settle.IsArm :=
  ⟨harm.conditional, harm.unmarked, harm.quiet, harm.slot⟩

theorem Stops.settle {frame : Frame} (hstops : frame.Stops) : frame.settle.Stops :=
  ⟨hstops.quiet, hstops.phase, hstops.slot⟩

theorem Plain.settle {frame : Frame} (hplain : frame.Plain) : frame.settle.Plain :=
  ⟨hplain.unmarked, hplain.quiet, hplain.kind⟩

end Frame

namespace Stack

variable (name : String) (line : Nat)

theorem quietBetween_frame (inner : Stack) {frame : Frame} (outer : Stack)
    (hquiet : frame.Quiet) :
    (script name line (inner ++ frame :: outer)).QuietBetween (size outer + 1)
      (size (frame :: outer)) :=
  (hasForest_frame name line inner frame outer).quietBetween hquiet

theorem children_frame (inner : Stack) (frame : Frame) (outer : Stack) :
    (script name line (inner ++ frame :: outer)).children (size outer) =
      frame.children (size outer) (!inner.isEmpty) := by
  rw [Script.children, node_frame]
  rfl

/-- Nothing leads on above all frames. -/
theorem not_leads_outside (stack : Stack) (target : Nat) :
    ¬ (script name line stack).LeadsToAwaiting (size stack) target := by
  apply Script.not_leads_of_kind
  rw [Script.kind, Script.node_outside (by simp)]
  rfl

section Frames

variable (inner : Stack) (frame : Frame) (outer : Stack) (target : Nat)

/-- Only the child above a frame can say something of an open `ELSE`. -/
private theorem eq_above_of_leads (hquiet : frame.Quiet) {child : Nat}
    (hchild : child ∈ (script name line (inner ++ frame :: outer)).children (size outer))
    (hleads : (script name line (inner ++ frame :: outer)).LeadsToAwaiting child target) :
    child = size (frame :: outer) := by
  rw [children_frame, Frame.children] at hchild
  rcases List.mem_append.mp hchild with hclosed | hopen
  · obtain ⟨hle, hlt⟩ := Branch.mem_forestIds hclosed
    exact absurd hleads
      ((quietBetween_frame name line inner outer hquiet).not_leads hle hlt target)
  · split at hopen
    · exact List.mem_singleton.mp hopen
    · cases hopen

/-- The child above a frame is its last one. -/
private theorem children_above (hinner : inner ≠ []) :
    (script name line (inner ++ frame :: outer)).children (size outer) =
      Branch.forestIds (size outer + 1) frame.closed ++ [size (frame :: outer)] := by
  have hopen : (!inner.isEmpty) = true := by simpa using hinner
  rw [children_frame, Frame.children, hopen]
  rfl

/-- Where a way leads on above a frame, there is one. -/
private theorem ne_nil_of_leads
    (hleads : (script name line (inner ++ frame :: outer)).LeadsToAwaiting
      (size (frame :: outer)) target) : inner ≠ [] := by
  rintro rfl
  exact not_leads_outside name line (frame :: outer) target hleads

/-- Ways from a conditional go on at the frame above it. -/
theorem leadsToAwaiting_frame (harm : frame.IsArm) :
    (script name line (inner ++ frame :: outer)).LeadsToAwaiting (size outer) target ↔
      (frame.phase? = some .awaitingAlternate ∧ target = size outer) ∨
        (script name line (inner ++ frame :: outer)).LeadsToAwaiting (size (frame :: outer))
          target := by
  have hphase := phase?_frame name line inner frame outer
  constructor
  · rintro ⟨hleads, htarget⟩
    cases hleads with
    | here => exact .inl ⟨hphase.symm.trans htarget, rfl⟩
    | body hbody hrest =>
        have hchild := eq_above_of_leads name line inner frame outer target harm.quiet
          (Script.mem_children_of_slot? hbody) ⟨hrest, htarget⟩
        exact .inr ⟨hchild ▸ hrest, htarget⟩
    | alternate halternate hrest =>
        have hchild := eq_above_of_leads name line inner frame outer target harm.quiet
          (Script.mem_children_of_slot? halternate) ⟨hrest, htarget⟩
        exact .inr ⟨hchild ▸ hrest, htarget⟩
  · rintro (⟨hawaiting, rfl⟩ | habove)
    · exact ⟨.here _, hphase.trans hawaiting⟩
    · have hinner := ne_nil_of_leads name line inner frame outer target habove
      have hslot : (script name line (inner ++ frame :: outer)).slot? (size outer)
          frame.closed.length = some (size (frame :: outer)) := by
        have hkind := kind_frame name line inner frame outer
        rw [Script.slot?, hkind, if_pos harm.conditional, children_above name line _ _ _ hinner,
          ← Branch.length_forestIds (size outer + 1), List.getElem?_concat_length]
      rcases harm.slot with hlength | hlength
      · rw [hlength] at hslot
        exact ⟨.body hslot habove.leads, habove.phase⟩
      · rw [hlength] at hslot
        exact ⟨.alternate hslot habove.leads, habove.phase⟩

theorem not_leads_stops (hstops : frame.Stops) :
    ¬ (script name line (inner ++ frame :: outer)).LeadsToAwaiting (size outer) target := by
  have hslot : ∀ position, (script name line (inner ++ frame :: outer)).slot? (size outer)
      (position + 1) = none := by
    intro position
    rw [Script.slot?, kind_frame, children_frame, Frame.children]
    split
    next hkind =>
      rw [hstops.slot hkind]
      split
      · rfl
      · rfl
    · rfl
  rintro ⟨hleads, hphase⟩
  cases hleads with
  | here => exact hstops.phase ((phase?_frame name line inner frame outer).symm.trans hphase)
  | body hbody hrest => simp [Script.body?, hslot] at hbody
  | alternate halternate hrest => simp [Script.alternate?, hslot] at halternate

/-- The last child of a frame is the one above it, or says nothing of an open `ELSE`. -/
theorem awaitsAt_frame (hquiet : frame.Quiet) :
    (script name line (inner ++ frame :: outer)).AwaitsAt (size outer) target ↔
      (script name line (inner ++ frame :: outer)).LeadsToAwaiting (size (frame :: outer))
        target := by
  constructor
  · rintro ⟨last, hlast, hleads⟩
    have hchild := eq_above_of_leads name line inner frame outer target hquiet
      (List.mem_of_getLast? hlast) hleads
    exact hchild ▸ hleads
  · intro habove
    have hinner := ne_nil_of_leads name line inner frame outer target habove
    refine ⟨_, ?_, habove⟩
    rw [children_above name line _ _ _ hinner, List.getLast?_concat]

end Frames

/-- The ids of the frames that wait for their alternates. -/
def awaiting (base : Stack) : Stack → List Nat
  | [] => []
  | frame :: rest =>
    (if frame.phase? = some .awaitingAlternate then [size (rest ++ base)] else []) ++
      awaiting base rest

/-- Ways from a run of conditionals lead to those of them that wait for an alternate, and to
what is above them. -/
theorem leadsToAwaiting_chain (inner : Stack) {chain : Stack} (base : Stack)
    (hchain : ∀ frame ∈ chain, frame.IsArm) (target : Nat) :
    (script name line (inner ++ (chain ++ base))).LeadsToAwaiting (size base) target ↔
      target ∈ awaiting base chain ∨
        (script name line (inner ++ (chain ++ base))).LeadsToAwaiting (size (chain ++ base))
          target := by
  -- The innermost frame is the head, and ways begin at the other end: the frames that are
  -- passed on the way move to what stands above.
  induction chain generalizing inner with
  | nil => simp [awaiting]
  | cons frame rest ih =>
      obtain ⟨hframe, hrest⟩ := List.forall_mem_cons.mp hchain
      have hbelow := ih (inner ++ [frame]) hrest
      have habove := leadsToAwaiting_frame name line inner frame (rest ++ base) target hframe
      simp only [List.append_assoc, List.cons_append, List.nil_append] at hbelow ⊢
      rw [hbelow, habove, awaiting]
      split
      next hphase => simp [hphase, or_assoc, or_comm]
      next hphase => simp [hphase]

theorem awaiting_append (base left right : Stack) :
    awaiting base (left ++ right) = awaiting (right ++ base) left ++ awaiting base right := by
  induction left with
  | nil => rfl
  | cons frame rest ih => simp [awaiting, ih]

theorem awaiting_eq_nil (base : Stack) {chain : Stack}
    (hany : (chain.any fun frame => frame.phase? == some .awaitingAlternate) = false) :
    awaiting base chain = [] := by
  induction chain with
  | nil => rfl
  | cons frame rest ih =>
      rw [List.any_cons, Bool.or_eq_false_iff] at hany
      rw [awaiting, ih hany.2, if_neg (by simpa using hany.1)]
      rfl

/-! ## Marks -/

/-- Whether a stack is made of runs of conditionals, each in a script or block that is marked
just if one of them waits for its alternate, and of plain frames that no way leads through. -/
inductive Levelled : Stack → Prop
  | nil : Levelled []
  | level {chain : Stack} {container : Frame} {outer : Stack}
      (hchain : ∀ frame ∈ chain, frame.IsArm)
      (hkind : container.kind = .script ∨ container.kind = .block) (hquiet : container.Quiet)
      (hmarked : container.marked = true →
        ∃ target, awaiting (container :: outer) chain = [target])
      (hunmarked : container.marked = false → awaiting (container :: outer) chain = [])
      (houter : Levelled outer) : Levelled (chain ++ container :: outer)
  | plain {frame : Frame} {outer : Stack} (hplain : frame.Plain) (hstops : frame.Stops)
      (houter : Levelled outer) : Levelled (frame :: outer)

theorem Levelled.settle {stack : Stack} (hstack : Levelled stack) : Levelled stack.settle := by
  cases hstack with
  | nil => exact .nil
  | @level chain container outer hchain hkind hquiet hmarked hunmarked houter =>
      cases chain with
      | nil =>
          exact @Levelled.level [] container.settle outer hchain hkind hquiet hmarked hunmarked
            houter
      | cons frame rest =>
          obtain ⟨hframe, hrest⟩ := List.forall_mem_cons.mp hchain
          exact @Levelled.level (frame.settle :: rest) container outer
            (List.forall_mem_cons.mpr ⟨hframe.settle, hrest⟩) hkind hquiet hmarked hunmarked houter
  | plain hplain hstops houter => exact .plain hplain.settle hstops.settle houter

theorem markedRight_frame (inner : Stack) {frame : Frame} (outer : Stack) (hplain : frame.Plain) :
    (script name line (inner ++ frame :: outer)).MarkedRight (size outer) := by
  have hnode := node_frame name line inner frame outer
  have hkind := kind_frame name line inner frame outer
  apply Script.markedRight_of_unmarked
  · rw [hnode]
    exact hplain.unmarked
  · intro hcontainer
    rw [Script.IsContainer, hkind] at hcontainer
    exact absurd hcontainer hplain.kind

/-- The rows of plain frames, and of what is complete below them. -/
theorem markedRight_plain (inner : Stack) {frames : Stack} (base : Stack)
    (hframes : ∀ frame ∈ frames, frame.Plain) {id : Nat} (hle : size base ≤ id)
    (hlt : id < size (frames ++ base)) :
    (script name line (inner ++ (frames ++ base))).MarkedRight id := by
  induction frames generalizing inner with
  | nil => exact absurd hlt (Nat.not_lt.mpr hle)
  | cons frame rest ih =>
      obtain ⟨hframe, hrest⟩ := List.forall_mem_cons.mp hframes
      rcases Nat.lt_trichotomy id (size (rest ++ base)) with hbelow | rfl | habove
      · have hmarked := ih (inner ++ [frame]) hrest hbelow
        simpa only [List.append_assoc, List.cons_append, List.nil_append] using hmarked
      · exact markedRight_frame name line inner (rest ++ base) hframe
      · exact (quietBetween_frame name line inner (rest ++ base) hframe.quiet).markedRight
          habove hlt

/-- Nothing leads on where a plain frame stands above. -/
private theorem not_leads_above {inner : Stack} (stack : Stack)
    (hinner : ∀ last, inner.getLast? = some last → last.Stops) (target : Nat) :
    ¬ (script name line (inner ++ stack)).LeadsToAwaiting (size stack) target := by
  rcases List.eq_nil_or_concat inner with rfl | ⟨front, last, rfl⟩
  · exact not_leads_outside name line stack target
  · have hlast := not_leads_stops name line front last stack target (hinner last (by simp))
    simpa using hlast

/-- The container of a run of conditionals that no way leads on from. -/
private theorem markedRight_container {inner chain : Stack} {container : Frame} {outer : Stack}
    (hinner : ∀ last, inner.getLast? = some last → last.Stops)
    (hchain : ∀ frame ∈ chain, frame.IsArm)
    (hkind : container.kind = .script ∨ container.kind = .block) (hquiet : container.Quiet)
    (hmarked : container.marked = true →
      ∃ target, awaiting (container :: outer) chain = [target])
    (hunmarked : container.marked = false → awaiting (container :: outer) chain = []) :
    (script name line (inner ++ (chain ++ container :: outer))).MarkedRight (size outer) := by
  have hnode := node_frame name line (inner ++ chain) container outer
  have hcontainer := kind_frame name line (inner ++ chain) container outer
  have hawaits : ∀ target, (script name line (inner ++ (chain ++ container :: outer))).AwaitsAt
      (size outer) target ↔ target ∈ awaiting (container :: outer) chain := by
    intro target
    have hlast := awaitsAt_frame name line (inner ++ chain) container outer target hquiet
    have hleads := leadsToAwaiting_chain name line inner (container :: outer) hchain target
    have habove := not_leads_above name line (chain ++ container :: outer) hinner target
    rw [List.append_assoc] at hlast
    rw [hlast, hleads, or_iff_left habove]
  rw [List.append_assoc] at hnode hcontainer
  constructor
  case marked =>
    intro hmark
    rw [hnode] at hmark
    obtain ⟨target, htarget⟩ := hmarked hmark
    refine ⟨by rwa [Script.IsContainer, hcontainer], target, ?_⟩
    intro other
    rw [hawaits, htarget, List.mem_singleton]
  case unmarked =>
    intro hmark _ target
    rw [hnode] at hmark
    rw [hawaits, hunmarked hmark]
    exact List.not_mem_nil

/-- The marks of such a stack are right, whatever plain frames stand on it. -/
theorem Levelled.markedRight {stack : Stack} (hstack : Levelled stack) {inner : Stack}
    (hinner : ∀ last, inner.getLast? = some last → last.Stops) {id : Nat}
    (hid : id < size stack) : (script name line (inner ++ stack)).MarkedRight id := by
  -- A container and a plain frame stop all ways from below, so that each level only has to
  -- look at itself.
  induction hstack generalizing inner with
  | nil => cases hid
  | @level chain container outer hchain hkind hquiet hmarked hunmarked houter ih =>
      rcases Nat.lt_trichotomy id (size outer) with hbelow | rfl | habove
      · have hcontainer : container.Stops := Frame.stops_of_kind hquiet (by
          rcases hkind with hkind | hkind <;> rw [hkind] <;> rfl)
        have hmark := @ih (inner ++ chain ++ [container]) (by simpa using hcontainer) hbelow
        simpa only [List.append_assoc, List.cons_append, List.nil_append] using hmark
      · exact markedRight_container name line hinner hchain hkind hquiet hmarked hunmarked
      · by_cases hregion : id < size (container :: outer)
        · have hquietRegion := quietBetween_frame name line (inner ++ chain) outer hquiet
          rw [List.append_assoc] at hquietRegion
          exact hquietRegion.markedRight habove hregion
        · exact markedRight_plain name line inner (container :: outer)
            (fun frame hframe => (hchain frame hframe).plain) (Nat.not_lt.mp hregion) hid
  | @plain frame outer hplain hstops houter ih =>
      by_cases hbelow : id < size outer
      · have hmark := @ih (inner ++ [frame]) (by simpa using hstops) hbelow
        simpa only [List.append_assoc, List.cons_append, List.nil_append] using hmark
      · exact markedRight_plain name line inner outer (List.forall_mem_singleton.mpr hplain)
          (Nat.not_lt.mp hbelow) hid

end Stack

end SignalScript
