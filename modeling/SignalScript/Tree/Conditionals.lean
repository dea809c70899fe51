import SignalScript.Tree.Script

/-!
# Conditionals of a script

Ways through the tree that follow conditionals: upwards to the node that a run
of nested conditionals stands in, and downwards to the one that an `ELSE`
belongs to.
-/

namespace SignalScript

namespace Script

/-- Whether a node is a conditional. -/
def isConditional (script : Script) (id : Nat) : Bool :=
  (script.kind id).isConditional

/-- The conditionals around a node with nothing else between, innermost
first. -/
def enclosingConditionals (script : Script) (id : Nat) : List Nat :=
  (script.ancestors id).takeWhile script.isConditional

/-- The innermost node around another one that is no conditional. -/
def container? (script : Script) (id : Nat) : Option Nat :=
  (script.ancestors id).find? fun ancestor => !script.isConditional ancestor

/-- The conditional that an `ELSE` after a node belongs to: the last one, on
the way down through bodies and alternates, that has a body and no `ELSE`.  A
conditional with both can only be passed on the way to an `ELSE IF`.  Children
stand behind their parents in the table, which ends the walk. -/
def deepestUnresolved (script : Script) (id : Nat) : Option Nat :=
  match script.phase? id with
  | some .bodyComplete =>
    match script.body? id with
    | some body =>
      if id < body ∧ body < script.nodeCount then
        (script.deepestUnresolved body).or (some id)
      else
        some id
    | none => some id
  | some .complete =>
    match script.alternate? id with
    | some alternate =>
      if id < alternate ∧ alternate < script.nodeCount then
        script.deepestUnresolved alternate
      else
        none
    | none => none
  | _ => none
termination_by script.nodeCount - id
decreasing_by all_goals omega

theorem deepestUnresolved_of_bodyComplete (script : Script) {id body : Nat}
    (hphase : script.phase? id = some .bodyComplete) (hbody : script.body? id = some body)
    (hbounds : id < body ∧ body < script.nodeCount) :
    script.deepestUnresolved id = (script.deepestUnresolved body).or (some id) := by
  rw [deepestUnresolved, hphase, hbody]
  simp [hbounds]

theorem deepestUnresolved_of_complete (script : Script) {id alternate : Nat}
    (hphase : script.phase? id = some .complete)
    (halternate : script.alternate? id = some alternate)
    (hbounds : id < alternate ∧ alternate < script.nodeCount) :
    script.deepestUnresolved id = script.deepestUnresolved alternate := by
  rw [deepestUnresolved, hphase, halternate]
  simp [hbounds]

/-- Where the walk for an `ELSE` ends, a conditional has a body and no `ELSE`. -/
theorem phase?_of_deepestUnresolved {script : Script} {id target : Nat}
    (htarget : script.deepestUnresolved id = some target) :
    script.phase? target = some .bodyComplete := by
  fun_induction deepestUnresolved script id with
  | case1 id hphase body hbody hbounds ih =>
    rcases Option.or_eq_some_iff.mp htarget with hdeeper | ⟨-, hhere⟩
    · exact ih hdeeper
    · rwa [← Option.some.inj hhere]
  | case2 id hphase body hbody hbounds => rwa [← Option.some.inj htarget]
  | case3 id hphase hbody => rwa [← Option.some.inj htarget]
  | case4 id hphase alternate halternate hbounds ih => exact ih htarget
  | case5 => cases htarget
  | case6 => cases htarget
  | case7 => cases htarget

end Script

end SignalScript
