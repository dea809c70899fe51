import SignalScript.Proofs.Builder.Position

/-!
# Completing phrases and taking them up again

The frames of a level, and the two things that a builder does to a whole run of
them.  A phrase that is complete completes all conditionals that are open on its
level, which leaves one more branch in the container.  An `ELSE` undoes that for
the last phrase: it finds the conditional that has no alternate, and the frames on
the way to it are open again.
-/

namespace SignalScript

namespace Arm

theorem endsInAlternate_append (start : Bool) (left right : List Arm) :
    endsInAlternate start (left ++ right) =
      endsInAlternate (endsInAlternate start left) right := by
  rw [endsInAlternate, List.foldl_append]
  rfl

theorem chain_append (reopened isAlternate : Bool) (left right : List Arm) :
    chain reopened isAlternate (left ++ right) =
      chain reopened (endsInAlternate isAlternate left) right ++
        chain reopened isAlternate left := by
  induction left generalizing isAlternate with
  | nil => simp [chain, endsInAlternate]
  | cons arm inner ih =>
      simp only [List.cons_append, chain, ih, List.append_assoc]
      rfl

theorem plugAll_append (left right : List Arm) (inside : Phrase) :
    plugAll (left ++ right) inside = plugAll left (plugAll right inside) := by
  rw [plugAll, List.foldr_append]
  rfl

@[simp]
theorem fill_frame (arm : Arm) (reopened isAlternate : Bool) :
    (arm.frame reopened isAlternate).fill = arm.frame true isAlternate := by
  rcases arm with ⟨condition, _ | body⟩ <;> cases reopened <;> rfl

theorem map_fill_chain (reopened isAlternate : Bool) (arms : List Arm) :
    (chain reopened isAlternate arms).map Frame.fill = chain true isAlternate arms := by
  induction arms generalizing isAlternate with
  | nil => rfl
  | cons arm inner ih => simp [chain, ih]

theorem frame_of_mem_chain {reopened isAlternate : Bool} {arms : List Arm} {found : Frame}
    (hfound : found ∈ chain reopened isAlternate arms) :
    ∃ (arm : Arm) (inAlternate : Bool), found = arm.frame reopened inAlternate := by
  induction arms generalizing isAlternate with
  | nil => simp [chain] at hfound
  | cons arm inner ih =>
      simp only [chain, List.mem_append, List.mem_singleton] at hfound
      rcases hfound with hfound | hfound
      · exact ih hfound
      · exact ⟨arm, isAlternate, hfound⟩

theorem isConditional_chain {reopened isAlternate : Bool} {arms : List Arm} :
    ∀ frame ∈ chain reopened isAlternate arms, frame.kind.isConditional = true := by
  intro frame hframe
  obtain ⟨arm, inAlternate, rfl⟩ := frame_of_mem_chain hframe
  rfl

theorem marked_chain {reopened isAlternate : Bool} {arms : List Arm} :
    ∀ frame ∈ chain reopened isAlternate arms, frame.marked = false := by
  intro frame hframe
  obtain ⟨arm, inAlternate, rfl⟩ := frame_of_mem_chain hframe
  rfl

@[simp]
theorem phase?_frame (arm : Arm) (reopened inAlternate : Bool) :
    (arm.frame reopened inAlternate).phase? = some (arm.phase reopened) := rfl

/-- An open conditional waits for its alternate where a way leads into one. -/
theorem any_awaitingAlternate_open (inAlternate : Bool) (arms : List Arm) :
    ((chain false inAlternate arms).any fun frame => frame.phase? == some .awaitingAlternate) =
      arms.any isAlternate := by
  induction arms generalizing inAlternate with
  | nil => rfl
  | cons arm inner ih =>
      have harm : (some (arm.phase false) == some Phase.awaitingAlternate) = arm.isAlternate := by
        rcases arm with ⟨condition, _ | body⟩ <;> rfl
      simp only [chain, List.any_append, ih, List.any_cons, List.any_nil, phase?_frame, harm,
        Bool.or_false]
      rw [Bool.or_comm]

/-- A conditional that is open again waits for nothing. -/
theorem any_awaitingAlternate_reopened (inAlternate : Bool) (arms : List Arm) :
    ((chain true inAlternate arms).any fun frame => frame.phase? == some .awaitingAlternate) =
      false := by
  rw [List.any_eq_false]
  intro frame hframe
  obtain ⟨arm, isAlternate, rfl⟩ := frame_of_mem_chain hframe
  rcases arm with ⟨condition, _ | body⟩ <;> simp [phase]

/-- Frames that are all complete are one branch of the node below them. -/
theorem script_absorb (name : String) (line : Nat) (inAlternate : Bool) (arms : List Arm)
    (phrase : Phrase) (top below : Frame) (outer : Stack) (hlinked : top.linked = false)
    (hmarked : top.marked = false)
    (hbranch : top.branch = phrase.branch (endsInAlternate inAlternate arms)) :
    Stack.script name line (top :: (chain true inAlternate arms ++ below :: outer)) =
      Stack.script name line
        (below.add ((plugAll arms phrase).branch inAlternate) :: outer) := by
  induction arms generalizing inAlternate below outer with
  | nil =>
      have hadd := Stack.script_add_branch name line top below outer hlinked
        hmarked
      rw [hbranch] at hadd
      exact hadd
  | cons arm inner ih =>
      have hinner := ih arm.isAlternate (arm.frame true inAlternate) (below :: outer) hbranch
      have hadd := Stack.script_add_branch name line
        ((arm.frame true inAlternate).add ((plugAll inner phrase).branch arm.isAlternate)) below
        outer rfl rfl
      have harm : ((arm.frame true inAlternate).add
          ((plugAll inner phrase).branch arm.isAlternate)).branch =
            (plugAll (arm :: inner) phrase).branch inAlternate := by
        rcases arm with ⟨condition, _ | body⟩ <;> rfl
      rw [harm] at hadd
      simp only [chain, List.append_assoc, List.cons_append, List.nil_append]
      rw [hinner, hadd]

end Arm

namespace Level

/-- A level in which a phrase can begin is either between two phrases or waits
for one in the slot of its innermost conditional. -/
theorem chain_cases (level : Level) :
    (level.inSlot = false ∧ level.inAlternate = false ∧ level.chain = [] ∧
      level.resumed? = none ∧ level.slots = []) ∨
    (∃ (arm : Arm) (isAlternate : Bool) (rest : Stack), level.inSlot = true ∧
      level.inAlternate = arm.isAlternate ∧ level.chain = arm.frame false isAlternate :: rest) := by
  rcases List.eq_nil_or_concat level.slots with hslots | ⟨front, arm, hslots⟩
  · left
    have hresumed : level.resumed? = none := by
      cases hresumed : level.resumed? with
      | none => rfl
      | some resumed => simp [slots, hresumed] at hslots
    simp [inSlot, inAlternate, chain, trail, hslots, hresumed, Arm.endsInAlternate, Arm.chain]
  · right
    refine ⟨arm, Arm.endsInAlternate (Arm.endsInAlternate false level.trail) front,
      Arm.chain false (Arm.endsInAlternate false level.trail) front ++
        Arm.chain true false level.trail, ?_, ?_, ?_⟩
    · simp [inSlot, hslots]
    · simp [inAlternate, hslots, Arm.endsInAlternate]
    · simp [chain, hslots, Arm.chain_append, Arm.chain]

/-- The container is marked while one of the open conditionals waits for its
alternate. -/
theorem any_awaitingAlternate (level : Level) :
    (level.chain.any fun frame => frame.phase? == some .awaitingAlternate) =
      level.resumed?.isSome := by
  rw [chain, List.any_append, Arm.any_awaitingAlternate_open, Arm.any_awaitingAlternate_reopened]
  cases hresumed : level.resumed? <;> simp [slots, hresumed, Arm.isAlternate]

theorem isConditional_chain (level : Level) :
    ∀ frame ∈ level.chain, frame.kind.isConditional = true := by
  intro frame hframe
  rcases List.mem_append.mp hframe with hslot | htrail
  · exact Arm.isConditional_chain frame hslot
  · exact Arm.isConditional_chain frame htrail

theorem marked_chain (level : Level) : ∀ frame ∈ level.chain, frame.marked = false := by
  intro frame hframe
  rcases List.mem_append.mp hframe with hslot | htrail
  · exact Arm.marked_chain frame hslot
  · exact Arm.marked_chain frame htrail

theorem map_fill_chain (level : Level) :
    level.chain.map Frame.fill = Arm.chain true false (level.trail ++ level.slots) := by
  rw [chain, List.map_append, Arm.map_fill_chain, Arm.map_fill_chain, Arm.chain_append]

theorem inAlternate_eq (level : Level) :
    level.inAlternate = Arm.endsInAlternate false (level.trail ++ level.slots) := by
  rw [Arm.endsInAlternate_append, inAlternate]
  cases hslots : level.slots with
  | nil =>
      have hresumed : level.resumed? = none := by
        cases hresumed : level.resumed? with
        | none => rfl
        | some resumed => simp [slots, hresumed] at hslots
      simp [trail, hresumed, Arm.endsInAlternate]
  | cons arm inner => rfl

/-! ## Completing a phrase -/

/-- With a phrase in a slot, its level ends in a conditional. -/
private theorem isConditional_plugAll (arms : List Arm) (phrase : Phrase) (isAlternate : Bool)
    (harms : arms ≠ []) :
    Branch.isConditional ((Arm.plugAll arms phrase).branch isAlternate) = true := by
  cases arms with
  | nil => exact absurd rfl harms
  | cons arm inner => rcases arm with ⟨condition, _ | body⟩ <;> rfl

theorem settle_container_add (level : Level) (phrase : Phrase) (kind : NodeKind)
    (containerLine : Nat) (hkind : kind.isConditional = false) :
    ((level.add phrase).container kind containerLine).settle =
      { kind
        line := containerLine
        linked := Branch.isConditional
          ((Arm.plugAll (level.trail ++ level.slots) phrase).branch false)
        closed := Phrase.branches level.done ++
          [(Arm.plugAll (level.trail ++ level.slots) phrase).branch false] } := by
  simp [Frame.settle, container, add, hkind, Phrase.branches]

theorem settle_onto_add (level : Level) (phrase : Phrase) (kind : NodeKind) (containerLine : Nat)
    (outer : Stack) :
    Stack.settle ((level.add phrase).onto kind containerLine outer) =
      ((level.add phrase).container kind containerLine).settle :: outer := rfl

variable (name : String) (line : Nat) (readingName : Bool) (maxDepth : Option Nat)

/-- A statement or block that is complete completes its level. -/
theorem complete_phrase (level : Level) (phrase : Phrase) (top : Frame) (kind : NodeKind)
    (containerLine : Nat) (outer : Stack) (nodeLine : Nat) (hkind : kind.isConditional = false)
    (hmarked : top.marked = false) (hbranch : top.branch = phrase.branch level.inAlternate)
    (hphrase : Branch.isConditional top.branch = false) :
    (Stack.builder name line readingName maxDepth
        (top :: level.onto kind containerLine outer)).complete nodeLine =
      .ok (Stack.builder name line readingName maxDepth
        (Stack.settle ((level.add phrase).onto kind containerLine outer))) := by
  rw [settle_onto_add, settle_container_add level phrase kind containerLine hkind, onto]
  rcases level.chain_cases with
    ⟨_, hinAlternate, hchain, hresumed, hslots⟩ | ⟨arm, isAlternate, rest, hslot, _, hchain⟩
  · have hphase : (level.container kind containerLine).phase? = none := by
      cases kind <;> simp [container, Frame.phase?, NodeKind.conditional?] at hkind ⊢
      simp [NodeKind.isConditional] at hkind
    have hcomplete := Stack.complete_inContainer name line
      readingName maxDepth top
      (level.container kind containerLine) outer nodeLine hphase hmarked
    rw [hinAlternate] at hbranch
    have htrail : level.trail = [] := by simp [trail, hresumed]
    rw [hchain, List.nil_append, hcomplete, htrail, hslots, hbranch]
    rw [hbranch] at hphrase
    simp [Frame.add, Frame.unlink, container, hresumed, Arm.plugAll, hphrase]
  · have hfirst : (arm.frame false isAlternate).phase? = some .awaitingBody ∨
        (arm.frame false isAlternate).phase? = some .awaitingAlternate := by
      rcases arm with ⟨condition, _ | body⟩
      · exact .inl rfl
      · exact .inr rfl
    have hconditional := level.isConditional_chain
    have hunmarked := level.marked_chain
    have hany := level.any_awaitingAlternate
    have hfill := level.map_fill_chain
    rw [hchain] at hconditional hunmarked hany hfill
    have hcomplete := Stack.complete_inSlot name line
      readingName maxDepth rest (arm.frame false isAlternate)
      (level.container kind containerLine) outer top nodeLine hfirst
      (fun frame hframe => hconditional frame (.tail _ hframe)) hkind
      (fun frame hframe => hunmarked frame (.tail _ hframe)) hany.symm
    have habsorb := Arm.script_absorb name line false
      (level.trail ++ level.slots) phrase top.unlink
      ((level.container kind containerLine).setMark false) outer rfl hmarked
      (by rw [← level.inAlternate_eq, ← hbranch]; rfl)
    have harms : level.trail ++ level.slots ≠ [] := by
      intro hnil
      simp [inSlot, (List.append_eq_nil_iff.mp hnil).2] at hslot
    rw [hchain, List.cons_append, hcomplete, hfill, habsorb,
      isConditional_plugAll _ phrase false harms]
    rfl

end Level

/-! ## Taking a phrase up again -/

/-- The frame of a branch that is complete. -/
def Branch.frame : Branch → Frame
  | .node kind line children => { kind, line, closed := children }

namespace Phrase

variable (name : String) (line : Nat)

/-- The table of a conditional is that of its body on the way into it. -/
private theorem script_arm (arm : Arm) (inside : Phrase) (isAlternate : Bool) (below : Stack) :
    Stack.script name line (((arm.plug inside).branch isAlternate).frame :: below) =
      Stack.script name line
        ((inside.branch arm.isAlternate).frame :: arm.frame true isAlternate :: below) := by
  have hadd := Stack.script_add_branch name line
    (inside.branch arm.isAlternate).frame (arm.frame true isAlternate) below
    (by cases inside <;> rfl) (by cases inside <;> rfl)
  have hbranch : (inside.branch arm.isAlternate).frame.branch = inside.branch arm.isAlternate := by
    cases inside <;> rfl
  have harm : (arm.frame true isAlternate).add (inside.branch arm.isAlternate) =
      ((arm.plug inside).branch isAlternate).frame := by
    rcases arm with ⟨condition, _ | body⟩ <;> rfl
  rw [hadd, hbranch, harm]

/-- The node at the end of a way stands behind the conditional it leads into. -/
private theorem arm_bounds (arm : Arm) (inside : Phrase) (isAlternate : Bool) (below : Stack) :
    Stack.size below < Stack.size (arm.frame true isAlternate :: below) ∧
      Stack.size (arm.frame true isAlternate :: below) <
        (Stack.script name line
          (((arm.plug inside).branch isAlternate).frame :: below)).nodeCount := by
  rw [script_arm, Stack.nodeCount_script]
  simp only [Stack.size]
  omega

/-- An `ELSE` after a phrase finds the conditional that the phrase is taken up
again at. -/
theorem deepestUnresolved_frame (phrase : Phrase) (isAlternate : Bool) (below : Stack) :
    (Stack.script name line ((phrase.branch isAlternate).frame :: below)).deepestUnresolved
        (Stack.size below) =
      phrase.resume?.map fun resumed =>
        Stack.size (Arm.chain true isAlternate resumed.trail ++ below) := by
  have hphase := Stack.phase?_frame name line []
    (phrase.branch isAlternate).frame below
  rw [List.nil_append] at hphase
  cases phrase with
  | statement first exprs =>
      rw [Script.deepestUnresolved, hphase]
      rfl
  | block first phrases =>
      rw [Script.deepestUnresolved, hphase]
      rfl
  | conditional condition body =>
      let arm : Arm := ⟨condition, none⟩
      have ih := deepestUnresolved_frame body false (arm.frame true isAlternate :: below)
      have hscript := script_arm name line arm body isAlternate below
      have hbody : (Stack.script name line
          (((arm.plug body).branch isAlternate).frame :: below)).body? (Stack.size below) =
            some (Stack.size (arm.frame true isAlternate :: below)) := by
        rw [Script.body?, Stack.slot?_frame]
        rfl
      have hdeepest := Script.deepestUnresolved_of_bodyComplete (Stack.script name line
        (((arm.plug body).branch isAlternate).frame :: below)) hphase hbody
        (arm_bounds name line arm body isAlternate below)
      refine hdeepest.trans ?_
      rw [hscript, show arm.isAlternate = false from rfl, ih, resume?]
      cases body.resume? with
      | none => rfl
      | some resumed =>
          simp [Arm.chain, arm, Arm.isAlternate]
  | alternative condition body alternate =>
      let arm : Arm := ⟨condition, some body⟩
      have ih := deepestUnresolved_frame alternate true (arm.frame true isAlternate :: below)
      have hscript := script_arm name line arm alternate isAlternate below
      have halternate : (Stack.script name line
          (((arm.plug alternate).branch isAlternate).frame :: below)).alternate?
            (Stack.size below) =
          some (Stack.size (arm.frame true isAlternate :: below)) := by
        rw [Script.alternate?, Stack.slot?_frame]
        simp [arm, Arm.plug, branch, Branch.frame, NodeKind.isConditional, Branch.forestIds,
          Arm.frame, Stack.size, Nat.add_assoc]
      have hdeepest := Script.deepestUnresolved_of_complete (Stack.script name line
        (((arm.plug alternate).branch isAlternate).frame :: below)) hphase halternate
        (arm_bounds name line arm alternate isAlternate below)
      refine hdeepest.trans ?_
      rw [hscript, show arm.isAlternate = true from rfl, ih, resume?]
      cases alternate.resume? with
      | none => rfl
      | some resumed =>
          simp [Arm.chain, arm, Arm.isAlternate]

/-- A phrase that can be taken up again is the conditional in question at the end
of the way to it. -/
theorem eq_plugAll_of_resume? {phrase : Phrase} {resumed : Resumed}
    (hresume : phrase.resume? = some resumed) :
    phrase = Arm.plugAll resumed.trail (.conditional resumed.condition resumed.body) := by
  cases phrase with
  | statement first exprs => simp [resume?] at hresume
  | block first phrases => simp [resume?] at hresume
  | conditional condition body =>
      simp only [resume?] at hresume
      cases hbody : body.resume? with
      | none =>
          rw [hbody] at hresume
          obtain rfl := Option.some.inj hresume
          rfl
      | some inner =>
          rw [hbody] at hresume
          obtain rfl := Option.some.inj hresume
          have heq := eq_plugAll_of_resume? hbody
          simpa [Arm.plugAll, Arm.plug] using heq
  | alternative condition body alternate =>
      simp only [resume?] at hresume
      obtain ⟨inner, hinner, rfl⟩ := Option.map_eq_some_iff.mp hresume
      have heq := eq_plugAll_of_resume? hinner
      simpa [Arm.plugAll, Arm.plug] using heq

end Phrase

namespace Level

variable (name : String) (line : Nat) (readingName : Bool) (maxDepth : Option Nat)

/-- A container whose last phrase is complete has the table of the container
without it and the phrase on top. -/
private theorem script_last (front : List Phrase) (last : Phrase) (kind : NodeKind)
    (containerLine : Nat) (outer : Stack) (linked marked : Bool) :
    Stack.script name line
        ({ kind, line := containerLine, linked, marked,
           closed := Phrase.branches (front ++ [last]) } :: outer) =
      Stack.script name line
        ((last.branch false).frame ::
          { kind, line := containerLine, linked, marked, closed := Phrase.branches front } ::
          outer) := by
  have hadd := Stack.script_add_branch name line (last.branch false).frame
    { kind, line := containerLine, linked, marked, closed := Phrase.branches front } outer
    (by cases last <;> rfl) (by cases last <;> rfl)
  have hbranch : (last.branch false).frame.branch = last.branch false := by
    cases last <;> rfl
  rw [hadd, hbranch, Phrase.branches_append]
  rfl

theorem children_container (front : List Phrase) (last : Phrase) (frame : Frame)
    (outer : Stack) (hclosed : frame.closed = Phrase.branches (front ++ [last])) :
    ((Stack.script name line (frame :: outer)).children (Stack.size outer)).getLast? =
      some (Stack.size outer + 1 + Branch.forestSize (Phrase.branches front)) := by
  have hnode := Stack.node_frame name line [] frame outer
  rw [List.nil_append] at hnode
  simp [Script.children, hnode, Frame.row, Frame.children, hclosed, Branch.forestIds_append,
    Phrase.branches, Branch.forestIds]

/-- Where the `ELSE` behind the phrases of a container leads to. -/
private theorem target_container (done : List Phrase) (kind : NodeKind) (containerLine : Nat)
    (outer : Stack) (linked : Bool) :
    let container : Frame :=
      { kind, line := containerLine, linked, closed := Phrase.branches done }
    let below : Frame :=
      { kind, line := containerLine, linked, closed := Phrase.branches done.dropLast }
    ((Stack.script name line (container :: outer)).children (Stack.size outer)).getLast?.bind
        (Stack.script name line (container :: outer)).deepestUnresolved =
      (done.getLast?.bind Phrase.resume?).map fun resumed =>
        Stack.size (Arm.chain true false resumed.trail ++ below :: outer) := by
  intro container below
  rcases List.eq_nil_or_concat done with rfl | ⟨front, last, hdone⟩
  · have hnode := Stack.node_frame name line [] container outer
    rw [List.nil_append] at hnode
    rw [Script.children, hnode]
    rfl
  · rw [List.concat_eq_append] at hdone
    subst hdone
    have hbelow : below =
        { kind, line := containerLine, linked, closed := Phrase.branches front } := by
      simp [below]
    have hlast : ((Stack.script name line (container :: outer)).children
        (Stack.size outer)).getLast? = some (Stack.size (below :: outer)) := by
      rw [hbelow]
      exact children_container name line front last container outer rfl
    have hscript : Stack.script name line (container :: outer) =
        Stack.script name line ((last.branch false).frame :: below :: outer) := by
      rw [hbelow]
      exact script_last name line front last kind containerLine outer linked false
    rw [hlast, Option.bind_some, hscript, last.deepestUnresolved_frame, List.getLast?_concat,
      Option.bind_some]

/-- The table after an `ELSE`: the container is marked, and the conditional waits
for its alternate. -/
private theorem script_resumed (front : List Phrase) (resumed : Resumed) (kind : NodeKind)
    (containerLine : Nat) (outer : Stack) :
    ((Stack.script name line
        ({ kind, line := containerLine, linked := true,
           closed := Phrase.branches (front ++ [Arm.plugAll resumed.trail
             (.conditional resumed.condition resumed.body)]) } :: outer)).modify
        (Stack.size outer) (fun node => { node with alternateReturn := true })).modify
      (Stack.size (Arm.chain true false resumed.trail ++
        { kind, line := containerLine, linked := true, closed := Phrase.branches front } ::
          outer))
      (Node.mapPhase fun _ => .awaitingAlternate) =
    Stack.script name line
      (Stack.settle (({ done := front, resumed? := some resumed } : Level).onto kind
        containerLine outer)) := by
  let phrase := Phrase.conditional resumed.condition resumed.body
  let isAlternate := Arm.endsInAlternate false resumed.trail
  let below : Frame :=
    { kind, line := containerLine, linked := true, closed := Phrase.branches front }
  let container := below.add ((Arm.plugAll resumed.trail phrase).branch false)
  have hcontainer : ({ kind, line := containerLine, linked := true,
                       closed := Phrase.branches (front ++ [Arm.plugAll resumed.trail phrase]) } :
      Frame) = container := by
    simp [container, below, Frame.add, Phrase.branches]
  have hmark := Stack.script_modify name line (Frame.actsAs_setMark true) []
    container outer
  have habsorb := Arm.script_absorb name line false resumed.trail phrase
    (phrase.branch isAlternate).frame (below.setMark true) outer rfl rfl rfl
  have hsize : Stack.size (Arm.chain true false resumed.trail ++ below.setMark true :: outer) =
      Stack.size (Arm.chain true false resumed.trail ++ below :: outer) :=
    Stack.size_append_congr _ rfl
  have hphase := Stack.script_modify name line
    (Frame.actsAs_mapPhase fun _ => .awaitingAlternate) [] (phrase.branch isAlternate).frame
    (Arm.chain true false resumed.trail ++ below.setMark true :: outer)
  have hmarked : container.setMark true =
      (below.setMark true).add ((Arm.plugAll resumed.trail phrase).branch false) := rfl
  rw [hsize] at hphase
  simp only [List.nil_append] at hmark hphase
  rw [hcontainer, hmark, hmarked, ← habsorb, hphase]
  rfl

/-- A container that ends with a conditional that can be taken up again is linked
to it. -/
private theorem settle_container {done : List Phrase} {resumed : Resumed} {kind : NodeKind}
    (containerLine : Nat) (hkind : kind = .script ∨ kind = .block)
    (hresume : done.getLast?.bind Phrase.resume? = some resumed) :
    (({ done } : Level).container kind containerLine).settle =
      { kind, line := containerLine, linked := true,
        closed := Phrase.branches (done.dropLast ++ [Arm.plugAll resumed.trail
          (.conditional resumed.condition resumed.body)]) } := by
  obtain ⟨last, hlast, hresumed⟩ := Option.bind_eq_some_iff.mp hresume
  have hphrase := Phrase.eq_plugAll_of_resume? hresumed
  obtain ⟨front, rfl⟩ := List.getLast?_eq_some_iff.mp hlast
  have hconditional : Branch.isConditional (last.branch false) = true := by
    rw [hphrase]
    rcases resumed with ⟨_ | ⟨⟨condition, _ | body⟩, inner⟩, _, _⟩ <;> rfl
  rw [← hphrase, List.dropLast_concat]
  rcases hkind with rfl | rfl <;>
    simp [Frame.settle, container, NodeKind.isConditional, Phrase.branches, hconditional]

/-- What an `ELSE` does where a phrase can begin. -/
theorem openAlternate_between {builder : Builder}
    (hkind : builder.kind = .script ∨ builder.kind = .block) (nodeLine : Nat) :
    builder.openAlternate nodeLine =
      match (builder.script.children builder.cursor).getLast?.bind
        builder.script.deepestUnresolved with
      | none => .error (.elseWithoutIf nodeLine)
      | some target => .ok { builder with
          script := (builder.script.modify builder.cursor fun node =>
            { node with alternateReturn := true }).modify target
              (Node.mapPhase fun _ => .awaitingAlternate)
          cursor := target } := by
  have hattached : builder.endOpenBody nodeLine = .ok builder := by
    rcases hkind with hkind | hkind <;> simp [Builder.endOpenBody, hkind]
  have htarget : builder.alternateTarget? =
      (builder.script.children builder.cursor).getLast?.bind
        builder.script.deepestUnresolved := by
    rcases hkind with hkind | hkind <;> simp only [Builder.alternateTarget?, hkind]
  rw [Builder.openAlternate, hattached]
  simp only [bind, Except.bind, htarget]
  rfl

/-- An `ELSE` behind the phrases of a container. -/
private theorem resume_container (done : List Phrase) (kind : NodeKind) (containerLine : Nat)
    (outer : Stack) (nodeLine : Nat) (hkind : kind = .script ∨ kind = .block) :
    (Stack.builder name line readingName maxDepth
        ((({ done } : Level).container kind containerLine).settle :: outer)).openAlternate
          nodeLine =
      (({ done } : Level).resume nodeLine).map fun next =>
        Stack.builder name line readingName maxDepth
          (Stack.settle (next.onto kind containerLine outer)) := by
  let container := (({ done } : Level).container kind containerLine).settle
  let builder := Stack.builder name line readingName maxDepth (container :: outer)
  have htop : builder.kind = kind := Stack.kind_builder _ _ _ _ _ _
  have htarget : (builder.script.children builder.cursor).getLast?.bind
      builder.script.deepestUnresolved = _ :=
    target_container name line done kind containerLine outer container.linked
  have hopened := openAlternate_between (show builder.kind = .script ∨ builder.kind = .block by
    rwa [htop]) nodeLine
  rw [htarget] at hopened
  rw [hopened, resume, if_neg (show ¬({ done } : Level).inSlot = true from Bool.false_ne_true)]
  cases hlast : done.getLast?.bind Phrase.resume? with
  | none => rfl
  | some resumed =>
      have hsettle : container = _ := settle_container containerLine hkind hlast
      have hresumed := script_resumed name line done.dropLast resumed kind containerLine outer
      have hlinked : container.linked = true := by rw [hsettle]
      rw [← hsettle] at hresumed
      have hcursor : Stack.size (Arm.chain true false resumed.trail ++
            { kind, line := containerLine, linked := true,
              closed := Phrase.branches done.dropLast } :: outer) =
          Stack.size (Arm.chain true false resumed.trail ++
            ({ done := done.dropLast, resumed? := some resumed } : Level).container kind
              containerLine :: outer) :=
        Stack.size_append_congr _ rfl
      have hresult : Stack.builder name line readingName maxDepth
          (Stack.settle (({ done := done.dropLast, resumed? := some resumed } : Level).onto kind
            containerLine outer)) =
          { script := Stack.script name line
              (Stack.settle (({ done := done.dropLast, resumed? := some resumed } : Level).onto
                kind containerLine outer))
            cursor := Stack.size (Arm.chain true false resumed.trail ++
              { kind, line := containerLine, linked := true,
                closed := Phrase.branches done.dropLast } :: outer)
            readingName, maxDepth } := by
        rw [hcursor]
        rfl
      simp only [Option.map_some, hlinked, Except.map, hresult, ← hresumed]
      rfl

theorem resume_builder (level : Level) (kind : NodeKind) (containerLine : Nat) (outer : Stack)
    (nodeLine : Nat) (hkind : kind = .script ∨ kind = .block) :
    (Stack.builder name line readingName maxDepth
        (Stack.settle (level.onto kind containerLine outer))).openAlternate nodeLine =
      (level.resume nodeLine).map fun next =>
        Stack.builder name line readingName maxDepth
          (Stack.settle (next.onto kind containerLine outer)) := by
  rcases level.chain_cases with
    ⟨hslot, _, hchain, hresumed, hslots⟩ | ⟨arm, isAlternate, rest, hslot, _, hchain⟩
  · have hbodies : level.bodies = [] := by simpa [slots, hresumed] using hslots
    have hlevel : level = { done := level.done } := by
      rcases level with ⟨done, resumed?, bodies⟩
      simp_all
    rw [hlevel]
    exact resume_container _ _ _ _ level.done kind containerLine outer nodeLine hkind
  · have htop : (Stack.builder name line readingName maxDepth
        (Stack.settle (level.onto kind containerLine outer))).kind =
          .conditional ⟨arm.phase false, isAlternate⟩ := by
      rw [onto, hchain]
      exact Stack.kind_builder _ _ _ _ _ _
    simp [Builder.openAlternate, Builder.endOpenBody, Builder.alternateTarget?, htop, resume,
      hslot, Except.map, bind, Except.bind]

end Level

end SignalScript
