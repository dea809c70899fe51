import SignalScript.Proofs.Builder.Simulation
import SignalScript.Proofs.Grammar.Completeness
import SignalScript.Token.Stream

/-!
# Closing what is open

Wherever a builder stands, what closes the node at its cursor can be read there, and less
is open behind it.  So closing again and again ends where nothing is open.
-/

namespace SignalScript

/-- The lexemes that close what can be open in a script. -/
def closers : List Lexeme :=
  [⟨.statementEnd, ";"⟩, ⟨.bracketOpen, "("⟩, ⟨.bracketClose, ")"⟩, ⟨.blockClose, "\x7d"⟩]

/-- What closes the node at the cursor, or the name.  A conditional without a condition
gets an empty one, and a body or alternate that is missing becomes an empty statement. -/
def Builder.closing (builder : Builder) : List Lexeme :=
  if builder.readingName then
    [⟨.statementEnd, ";"⟩]
  else
    match builder.kind with
    | .statement => [⟨.statementEnd, ";"⟩]
    | .enclosure => [⟨.bracketClose, ")"⟩]
    | .block => [⟨.blockClose, "\x7d"⟩]
    | .conditional state =>
      if state.hasCondition then [⟨.statementEnd, ";"⟩]
      else [⟨.bracketOpen, "("⟩, ⟨.bracketClose, ")"⟩]
    | .script | .value _ | .operator _ => []

namespace Position

/-- What closes the innermost node that is open. -/
def closing (position : Position) : List Lexeme :=
  match position.focus with
  | .phrase =>
    if position.level.inSlot then [⟨.statementEnd, ";"⟩]
    else if position.around.isEmpty then []
    else [⟨.blockClose, "\x7d"⟩]
  | .head _ => [⟨.bracketOpen, "("⟩, ⟨.bracketClose, ")"⟩]
  | .exprs (.statement _) [] _ => [⟨.statementEnd, ";"⟩]
  | .exprs _ _ _ => [⟨.bracketClose, ")"⟩]

/-- The number of times that something has to be closed. -/
def openings (position : Position) : Nat :=
  position.around.length +
    match position.focus with
    | .phrase => if position.level.inSlot then 1 else 0
    | .head _ => 2
    | .exprs (.statement _) brackets _ => brackets.length + 1
    | .exprs (.condition _ _) brackets _ => brackets.length + 2

variable (name : String) (line : Nat) (maxDepth : Option Nat)

theorem closing_builder (position : Position) :
    (position.builder name line false maxDepth).closing = position.closing := by
  have hreading : (position.builder name line false maxDepth).readingName = false := rfl
  rw [Builder.closing, if_neg (by rw [hreading]; exact Bool.false_ne_true), closing]
  cases hfocus : position.focus with
  | phrase =>
      obtain ⟨top, outer, hframes, _, hcases⟩ := phrase_top line position hfocus
      rw [kind_of_frames _ _ _ _ hframes]
      rcases hcases with
        ⟨hslot, _, ⟨hkind, haround⟩ | ⟨hkind, haround⟩⟩ | ⟨hslot, isAlternate, hkind⟩
      · simp [hkind, hslot, haround]
      · simp [hkind, hslot, haround]
      · rw [hkind]
        cases position.level.inAlternate <;> simp [hslot, Conditional.hasCondition]
  | head headLine =>
      rw [kind_head _ _ _ _ hfocus]
      rfl
  | exprs anchor around done =>
      rw [kind_exprs _ _ _ _ hfocus]
      rcases around with _ | ⟨outer, around⟩ <;> cases anchor <;> rfl

theorem closing_subset (position : Position) : position.closing ⊆ closers := by
  rw [closing]
  split
  · split
    · decide
    · split
      · decide
      · decide
  · decide
  · decide
  · decide

/-- Nothing is left to close where a script can end. -/
theorem between_of_closing {position : Position} (hclosed : position.closing = []) :
    position.Between ∧ position.around = [] := by
  rw [closing] at hclosed
  split at hclosed
  next hfocus =>
    split at hclosed
    · cases hclosed
    next hslot =>
      split at hclosed
      next haround => exact ⟨⟨hfocus, Bool.eq_false_iff.mpr hslot⟩, List.isEmpty_iff.mp haround⟩
      · cases hclosed
  all_goals cases hclosed

private theorem openings_addPhrase (position : Position) (phrase : Phrase) :
    (position.addPhrase phrase).openings = position.around.length := rfl

private theorem openings_openBody (position : Position) (condition : Condition) :
    (position.openBody condition).openings = position.around.length + 1 := by
  rw [openings]
  simp [inSlot_openBody position condition, show (position.openBody condition).focus = .phrase
    from rfl, show (position.openBody condition).around = position.around from rfl]

/-- Whether what is open at a position can be closed, which leaves less open. -/
def Closable (position : Position) (line : Nat) : Prop :=
  ∃ after, position.run (TokenStream.locate line position.closing) = .ok after ∧
    after.openings < position.openings

/-- A semicolon is the body or alternate that a conditional waits for. -/
private theorem closable_slot {position : Position} (hfocus : position.focus = .phrase)
    (hslot : position.level.inSlot = true) (line : Nat) : position.Closable line := by
  refine ⟨position.addPhrase (.statement line []), ?_, ?_⟩
  · have hread : position.read ⟨.statementEnd, ";", line⟩ = position.endStatement none line := rfl
    have hclosing : position.closing = [⟨.statementEnd, ";"⟩] := by
      rw [closing, hfocus]
      exact if_pos hslot
    have hend : position.endStatement none line =
        .ok (position.addPhrase (.statement line [])) := by
      rw [endStatement, hfocus]
      exact if_pos hslot
    rw [hclosing]
    exact run_cons (hread.trans hend) []
  · rw [openings_addPhrase, openings, hfocus]
    simp [hslot]

private theorem closable_block (level outer : Level) (blockLine : Nat)
    (around : List (Level × Nat)) (hslot : level.inSlot = false) (line : Nat) :
    Closable ⟨level, (outer, blockLine) :: around, .phrase⟩ line := by
  let inside : Position := ⟨level, (outer, blockLine) :: around, .phrase⟩
  let outside : Position := ⟨outer, around, .phrase⟩
  refine ⟨outside.addPhrase (.block blockLine level.done), ?_, ?_⟩
  · have hclosing : inside.closing = [⟨.blockClose, "\x7d"⟩] := by
      simp [closing, inside, hslot]
    have hread : inside.read ⟨.blockClose, "\x7d", line⟩ = inside.closeBlock line := rfl
    have hclose : inside.closeBlock line =
        .ok (outside.addPhrase (.block blockLine level.done)) := by
      simp [closeBlock, inside, hslot, outside, addPhrase]
    rw [hclosing]
    exact run_cons (hread.trans hclose) []
  · rw [openings_addPhrase, openings]
    simp [hslot, outside]

private theorem closable_head {position : Position} {headLine : Nat}
    (hfocus : position.focus = .head headLine) (line : Nat) : position.Closable line := by
  rcases position with ⟨level, around, focus⟩
  obtain rfl := hfocus
  let position : Position := ⟨level, around, .head headLine⟩
  refine ⟨position.openBody ⟨headLine, line, []⟩, rfl, ?_⟩
  rw [openings_openBody]
  exact Nat.lt_succ_self _

private theorem closable_exprs {position : Position} {anchor : Anchor}
    {brackets : List (List Expr × Nat)} {done : List Expr}
    (hfocus : position.focus = .exprs anchor brackets done) (line : Nat) :
    position.Closable line := by
  rcases position with ⟨level, around, focus⟩
  obtain rfl := hfocus
  let position : Position := ⟨level, around, .phrase⟩
  cases brackets with
  | nil =>
      cases anchor with
      | statement first =>
          refine ⟨position.addPhrase (.statement first done), rfl, ?_⟩
          rw [openings_addPhrase]
          exact Nat.lt_succ_self _
      | condition headLine bracketLine =>
          refine ⟨position.openBody ⟨headLine, bracketLine, done⟩, rfl, ?_⟩
          rw [openings_openBody]
          exact Nat.lt_succ_self _
  | cons bracket brackets =>
      let inner : List Expr := bracket.1 ++ [.enclosure bracket.2 done]
      refine ⟨position.inExprs anchor brackets inner, ?_, ?_⟩
      · cases anchor <;> rfl
      · cases anchor <;> exact Nat.lt_succ_self _

/-- Whatever is open can be closed. -/
theorem closable_of_open {position : Position} (hopen : position.closing ≠ []) (line : Nat) :
    position.Closable line := by
  cases hfocus : position.focus with
  | phrase =>
      cases hslot : position.level.inSlot with
      | true => exact closable_slot hfocus hslot line
      | false =>
          rcases position with ⟨level, _ | ⟨⟨outer, blockLine⟩, around⟩, focus⟩
          · obtain rfl := hfocus
            simp_all [closing]
          · obtain rfl := hfocus
            exact closable_block level outer blockLine around hslot line
  | head headLine => exact closable_head hfocus line
  | exprs anchor brackets done => exact closable_exprs hfocus line

end Position

end SignalScript
