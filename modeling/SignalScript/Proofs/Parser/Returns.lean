import Mathlib.Logic.ExistsUnique
import SignalScript.Proofs.Builder.Returns
import SignalScript.Proofs.Parser.Alternates

/-!
# The two ways to go on after a conditional

After the last part of a conditional, building goes on in the container of the run of
conditionals that end with it.  If one of them has its alternate behind it, the way there is
another one, along the marks that the `ELSE`s have left.  Marks say just where an alternate is
open, on every level, so both ways lead to the same node.
-/

namespace SignalScript

namespace Builder

/-- A node is marked just if it is a script or block from whose last child a way leads to a
conditional that waits for its alternate, and then there is one such conditional.  A node is
completed by what is read to close it, or by an `ELSE`.  Where it is a body or alternate,
building goes on in the innermost node around that is no conditional; if an alternate ends
there, this is the node whose mark is found, and no other mark is taken away, and if none
ends, it has no mark. -/
theorem returns_agree {builder : Builder} (hreach : builder.Reachable) :
    (∀ id,
      ((builder.script.node id).alternateReturn = true ↔
        builder.script.IsContainer id ∧ ∃ target, builder.script.AwaitsAt id target) ∧
      ((builder.script.node id).alternateReturn = true →
        ∃! target, builder.script.AwaitsAt id target)) ∧
    (∀ line,
      (builder.endOpenBody line = .ok builder ∨
        builder.CompletesAt line builder ∧ builder.endOpenBody line = builder.complete line) ∧
      ∀ closer, (∃ error, builder.close closer line = .error error) ∨
        builder.close closer line = .ok builder ∨
          ∃ inside, builder.CompletesAt line inside ∧
            builder.close closer line = inside.complete line) ∧
    ∀ line inside, builder.CompletesAt line inside →
      ∀ conditional, inside.script.parent? inside.cursor = some conditional →
      ∀ done, inside.script.phase? conditional =
          some (if done then .awaitingAlternate else .awaitingBody) →
        inside.complete line = (inside.fillSlot conditional).ascend conditional done line ∧
        ∃ container next,
          (inside.fillSlot conditional).ReturnsTo conditional done line container next := by
  obtain ⟨name, first, readingName, maxDepth, position, rfl, -⟩ := hreach.placedNearest
  refine ⟨?marks, ?completions, ?returns⟩
  case completions =>
    exact fun line => ⟨endOpenBody_cases _ line, fun closer => close_cases _ closer line⟩
  case marks =>
    intro id
    have hright := position.markedRight_builder name first readingName maxDepth id
    refine ⟨⟨?marked, ?awaited⟩, ?unique⟩
    case marked =>
      intro hmark
      obtain ⟨hcontainer, target, htarget⟩ := hright.marked hmark
      exact ⟨hcontainer, target, (htarget target).mpr rfl⟩
    case awaited =>
      rintro ⟨hcontainer, target, htarget⟩
      rw [← Bool.not_eq_false]
      exact fun hmark => hright.unmarked hmark hcontainer target htarget
    case unique =>
      intro hmark
      obtain ⟨-, target, htarget⟩ := hright.marked hmark
      exact ⟨target, (htarget target).mpr rfl, fun other hother => (htarget other).mp hother⟩
  case returns =>
    intro line inside hcompletes conditional hparent done hphase
    obtain ⟨after, rfl, hscript, hconditional⟩ :=
      Position.exists_of_completesAt name first readingName maxDepth hcompletes
    have hreturns := after.returnsTo_builder name first readingName maxDepth hscript hconditional
      hparent hphase line
    refine ⟨?_, hreturns⟩
    cases done with
    | false =>
        rw [complete_of_slot hparent (.inl hphase), hphase]
        rfl
    | true =>
        rw [complete_of_slot hparent (.inr hphase), hphase]
        rfl

/-- In the block of `IF (A) X; ELSE { IF (B) Y; ELSE Z` two alternates are open, that of the
script and that of the block.  The end of `Z` leads back to the block and leaves the mark of
the script. -/
theorem returns_agree_nested :
    ∃ builder next : Builder, builder.Reachable ∧
      (∃! target, builder.script.AwaitsAt 0 target) ∧
      (∃! target, builder.script.AwaitsAt 6 target) ∧
      builder.complete 2 = .ok next ∧ next.cursor = 6 ∧
      (next.script.node 6).alternateReturn = false ∧
      (next.script.node 0).alternateReturn = true := by
  let parser := (Parser.ofLines ["SCRIPT A", "IF (A) X; ELSE \x7b IF (B) Y; ELSE Z"] {}).next.2
  have hread : parser.assembler.builder.any fun builder =>
      builder.kind = .statement ∧ builder.script.parent? builder.cursor = some 7 ∧
        builder.script.phase? 7 = some .awaitingAlternate ∧
        (builder.script.node 0).alternateReturn = true ∧
        (builder.script.node 6).alternateReturn = true ∧
        (builder.fillSlot 7).script.container? 7 = some 6 := by
    decide +kernel
  obtain ⟨builder, hbuilder, hfacts⟩ := Option.any_eq_true _ _ |>.mp hread
  obtain ⟨hkind, hparent, hphase, hscript, hblock, hcontainer⟩ := of_decide_eq_true hfacts
  have hreach : builder.Reachable := Parser.reachable_builder (.next .start) builder hbuilder
  obtain ⟨hmarks, -, hreturns⟩ := returns_agree hreach
  obtain ⟨hcomplete, container, next, hreturned⟩ :=
    hreturns 2 builder (.closed (.inl hkind)) 7 hparent true hphase
  obtain rfl : container = 6 := Option.some.inj (hreturned.around.symm.trans hcontainer)
  refine ⟨builder, next, hreach, (hmarks 0).2 hscript, (hmarks 6).2 hblock,
    hcomplete.trans hreturned.ascended, hreturned.cursor, hreturned.cleared, ?_⟩
  rw [hreturned.others 0 (by decide), alternateReturn_fillSlot, hscript]

end Builder

end SignalScript
