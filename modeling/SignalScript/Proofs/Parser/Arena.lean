import SignalScript.Proofs.Comment.Tokens
import SignalScript.Proofs.Parser.Closed
import SignalScript.Proofs.Parser.Scripts
import SignalScript.Proofs.Tree.Arena

/-!
# Tables in source order

A step adds its nodes at the end of the table, on the line of its token, and the tokens of
a text come in the order of their lines, as long as the count of the lines does not start
over.  So the lines of a table never go back, also when an `ELSE` has gone back to a node
before others.
-/

namespace SignalScript

/-- Whether the lines of a table never go back from node to node, nor behind the line of
the script. -/
structure Script.LinesRise (script : Script) : Prop where
  line_le : ∀ id < script.nodeCount, script.line ≤ (script.node id).line
  mono : ∀ {first second : Nat}, first ≤ second → second < script.nodeCount →
    (script.node first).line ≤ (script.node second).line

/-- Whether the lines of a table rise and go to a line at most. -/
structure Script.RisesTo (script : Script) (last : Nat) : Prop extends script.LinesRise where
  line_le_last : script.line ≤ last
  le_last : ∀ id < script.nodeCount, (script.node id).line ≤ last

namespace Script.RisesTo

variable {script before after : Script} {last : Nat}

theorem opened (line : Nat) : (Script.opened line).RisesTo line := by
  have hline : ∀ id, ((Script.opened line).node id).line = line := by
    intro id
    rw [node]
    cases id with
    | zero => rfl
    | succ id => rfl
  refine ⟨⟨?_, ?_⟩, Nat.le_refl _, ?_⟩
  · exact fun id _ => Nat.le_of_eq (hline id).symm
  · exact fun {first second} _ _ => Nat.le_of_eq ((hline first).trans (hline second).symm)
  · exact fun id _ => Nat.le_of_eq (hline id)

theorem mono_last {later : Nat} (hrises : script.RisesTo last) (hlater : last ≤ later) :
    script.RisesTo later where
  toLinesRise := hrises.toLinesRise
  line_le_last := Nat.le_trans hrises.line_le_last hlater
  le_last id hid := Nat.le_trans (hrises.le_last id hid) hlater

/-- New nodes on the last line keep the order. -/
theorem evolves {touched : Nat → Prop} (hrises : before.RisesTo last)
    (hevolves : before.Evolves touched last after) : after.RisesTo last := by
  have hcases : ∀ id < after.nodeCount, (after.node id).line = last ∨
      id < before.nodeCount ∧ (after.node id).line = (before.node id).line := by
    intro id hid
    by_cases hold : id < before.nodeCount
    · exact .inr ⟨hold, hevolves.nodeLine id hold⟩
    · exact .inl (hevolves.added id hid (Nat.le_of_not_lt hold)).1
  have hlast : ∀ id < after.nodeCount, (after.node id).line ≤ last := by
    intro id hid
    rcases hcases id hid with hnew | ⟨hold, hline⟩
    · exact Nat.le_of_eq hnew
    · rw [hline]
      exact hrises.le_last id hold
  refine ⟨⟨?_, ?_⟩, ?_, hlast⟩
  · intro id hid
    rw [hevolves.header]
    rcases hcases id hid with hnew | ⟨hold, hline⟩
    · rw [hnew]
      exact hrises.line_le_last
    · rw [hline]
      exact hrises.line_le id hold
  · intro first second hle hsecond
    have hfirst := Nat.lt_of_le_of_lt hle hsecond
    rcases hcases second hsecond with hnew | ⟨hold, hline⟩
    · rw [hnew]
      exact hlast first hfirst
    · rw [hline, hevolves.nodeLine first (Nat.lt_of_le_of_lt hle hold)]
      exact hrises.mono hle hold
  · rw [hevolves.header]
    exact hrises.line_le_last

end Script.RisesTo

namespace Builder

/-- Whether the table of a builder that can come about rises to a line. -/
structure RisesTo (last : Nat) (builder : Builder) : Prop where
  reachable : builder.Reachable
  script : builder.script.RisesTo last

theorem RisesTo.mono {builder : Builder} {last later : Nat} (hrises : builder.RisesTo last)
    (hlater : last ≤ later) : builder.RisesTo later :=
  ⟨hrises.reachable, hrises.script.mono_last hlater⟩

end Builder

namespace Parser

variable {lines : List String} {options : Options} {script : Script}

end Parser

end SignalScript
