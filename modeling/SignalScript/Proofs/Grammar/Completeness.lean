import SignalScript.Proofs.Builder.Levels
import SignalScript.Proofs.Grammar.Derivation

/-!
# Derivations are read

Reading the tokens of a derivation, without a limit of depth, leads from a position
to the one behind what the derivation says they mean.  The lemmas below say so for
each nonterminal, as an equality of two readings: of its tokens and what follows
from one position, and of what follows from the other.
-/

namespace SignalScript

namespace Position

/-- Reads a token of a script behind its name. -/
def read (position : Position) (token : Token) : Except ParseError Position :=
  match Action.ofToken token with
  | .build step => position.step step none token.line
  | _ => .ok position

/-- Reads tokens one after the other. -/
def run (position : Position) : List Token → Except ParseError Position
  | [] => .ok position
  | token :: rest => do
    let next ← position.read token
    next.run rest

theorem run_cons {position next : Position} {token : Token}
    (hread : position.read token = .ok next) (rest : List Token) :
    position.run (token :: rest) = next.run rest := by
  rw [run, hread]
  rfl

/-- The first token is read, and then the others. -/
theorem exists_read_of_run {position after : Position} {token : Token} {rest : List Token}
    (hrun : position.run (token :: rest) = .ok after) :
    ∃ next, position.read token = .ok next ∧ next.run rest = .ok after := by
  rw [run] at hrun
  cases hread : position.read token with
  | error error => simp [hread, bind, Except.bind] at hrun
  | ok next =>
      rw [hread] at hrun
      exact ⟨next, rfl, hrun⟩

/-- The level with one more body open. -/
def openBody (position : Position) (condition : Condition) : Position :=
  { position with
    level := { position.level with bodies := position.level.bodies ++ [condition] }
    focus := .phrase }

/-- The position behind phrases of a level on which no conditional is open. -/
def addPhrases (position : Position) (phrases : List Phrase) : Position :=
  { position with level := { done := position.level.done ++ phrases }, focus := .phrase }

/-- What is read at a position where a phrase can begin. -/
structure Between (position : Position) : Prop where
  focus : position.focus = .phrase
  inSlot : position.level.inSlot = false

theorem Between.level_eq {position : Position} (hbetween : position.Between) :
    position.level = { done := position.level.done } := by
  have hslot := hbetween.inSlot
  rcases position with ⟨⟨done, resumed?, bodies⟩, around, focus⟩
  cases resumed? <;> cases bodies <;> simp_all [Level.inSlot, Level.slots]

theorem Between.eq_addPhrases {position : Position} (hbetween : position.Between) :
    position.addPhrases [] = position := by
  rw [addPhrases, List.append_nil, ← hbetween.level_eq, ← hbetween.focus]

theorem between_addPhrases (position : Position) (phrases : List Phrase) :
    (position.addPhrases phrases).Between := ⟨rfl, rfl⟩

theorem between_addPhrase (position : Position) (phrase : Phrase) :
    (position.addPhrase phrase).Between := ⟨rfl, rfl⟩

/-- Between phrases, one more phrase is just that. -/
theorem Between.addPhrase_eq {position : Position} (hbetween : position.Between)
    (phrase : Phrase) : position.addPhrase phrase = position.addPhrases [phrase] := by
  have hlevel := hbetween.level_eq
  rw [addPhrase, addPhrases, hlevel]
  rfl

theorem addPhrases_addPhrases (position : Position) (left right : List Phrase) :
    (position.addPhrases left).addPhrases right = position.addPhrases (left ++ right) := by
  simp [addPhrases]

/-! ## Expressions -/

/-- The position with expressions open. -/
def inExprs (position : Position) (anchor : Anchor) (around : List (List Expr × Nat))
    (done : List Expr) : Position :=
  { position with focus := .exprs anchor around done }

/-- A leaf is a step, whose line is its own. -/
theorem ofToken_leaf {token : Token} {expr : Expr} (hleaf : Grammar.Leaf token expr) :
    ∃ step, Action.ofToken token = .build step ∧ expr.line = token.line ∧
      ∀ (position : Position) (limit : Option Nat),
        position.step step limit token.line = position.addLeaf expr limit token.line := by
  cases hleaf with
  | value text line hkeyword hoperator =>
      refine ⟨.value text, ?_, rfl, fun _ _ => rfl⟩
      simp only [Action.ofToken]
      unfold Action.ofValue
      split
      · simp [keywords] at hkeyword
      · simp [keywords] at hkeyword
      · simp [keywords] at hkeyword
      · simp [keywords] at hkeyword
      · rw [if_neg hoperator]
  | word text line hoperator =>
      refine ⟨.operator text, ?_, rfl, fun _ _ => rfl⟩
      simp only [operatorWords, List.mem_cons, List.not_mem_nil, or_false] at hoperator
      rcases hoperator with rfl | rfl | rfl | rfl | rfl | rfl <;> rfl
  | operator text line => exact ⟨.operator text, rfl, rfl, fun _ _ => rfl⟩

theorem read_leaf {token : Token} {expr : Expr} (hleaf : Grammar.Leaf token expr)
    (position : Position) :
    position.read token = position.addLeaf expr none token.line := by
  obtain ⟨step, haction, _, hstep⟩ := ofToken_leaf hleaf
  simp only [read, haction, hstep]

theorem read_exprs {tokens rest : List Token} {exprs : List Expr}
    (hexprs : Grammar.Exprs tokens exprs rest) (position : Position) (anchor : Anchor)
    (around : List (List Expr × Nat)) (done : List Expr) :
    (position.inExprs anchor around done).run tokens =
      (position.inExprs anchor around (done ++ exprs)).run rest := by
  induction hexprs generalizing position anchor around done with
  | nil rest => rw [List.append_nil]
  | @leaf token tokens rest expr exprs first others ih =>
      have hread : (position.inExprs anchor around done).read token =
          .ok (position.inExprs anchor around (done ++ [expr])) := by
        rw [read_leaf first]
        rfl
      rw [run_cons hread, ih, List.append_assoc, List.singleton_append]
  | @enclosure tokens middle rest inner exprs opened closed line closedLine inside others
      ihInside ihOthers =>
      have hopen : (position.inExprs anchor around done).read ⟨.bracketOpen, opened, line⟩ =
          .ok (position.inExprs anchor ((done, line) :: around) []) := rfl
      have hclose : (position.inExprs anchor ((done, line) :: around) inner).read
          ⟨.bracketClose, closed, closedLine⟩ =
            .ok (position.inExprs anchor around (done ++ [.enclosure line inner])) := rfl
      rw [run_cons hopen, ihInside, List.nil_append, run_cons hclose, ihOthers,
        List.append_assoc, List.singleton_append]

/-- A token that an expression begins with opens a statement where a phrase can
begin. -/
theorem read_begins {token : Token} (hbegins : Grammar.Begins token) (position : Position)
    (hfocus : position.focus = .phrase) :
    position.read token = (position.inExprs (.statement token.line) [] []).read token := by
  rcases position with ⟨level, around, focus⟩
  obtain rfl := hfocus
  cases hbegins with
  | leaf first =>
      rw [read_leaf first, read_leaf first]
      rfl
  | bracketOpen text line => rfl

theorem begins_of_exprs {tokens rest : List Token} {first : Expr} {exprs : List Expr}
    (hexprs : Grammar.Exprs tokens (first :: exprs) rest) :
    ∃ token others, tokens = token :: others ∧ Grammar.Begins token ∧ first.line = token.line := by
  cases hexprs with
  | leaf leaf others =>
      obtain ⟨_, _, hline, _⟩ := ofToken_leaf leaf
      exact ⟨_, _, rfl, .leaf leaf, hline⟩
  | enclosure inside others => exact ⟨_, _, rfl, .bracketOpen _ _, rfl⟩

/-- The first expression of a statement opens it. -/
theorem read_statement {tokens rest : List Token} {first : Expr} {exprs : List Expr}
    (hexprs : Grammar.Exprs tokens (first :: exprs) rest) (position : Position)
    (hfocus : position.focus = .phrase) :
    position.run tokens =
      (position.inExprs (.statement first.line) [] (first :: exprs)).run rest := by
  have hinside := read_exprs hexprs position (.statement first.line) [] []
  obtain ⟨token, others, rfl, hbegins, hline⟩ := begins_of_exprs hexprs
  rw [List.nil_append] at hinside
  rw [← hinside, run, run, read_begins hbegins position hfocus, hline]

/-! ## Phrases -/

/-- `IF` `(` expr* `)` -/
theorem read_head {tokens rest : List Token} {condition : Condition}
    (hhead : Grammar.Head tokens condition rest) (position : Position)
    (hfocus : position.focus = .phrase) :
    position.run tokens = (position.openBody condition).run rest := by
  rcases hhead with ⟨inside⟩
  rename_i tokens exprs opened closed line bracketLine closedLine
  have hword : position.read ⟨.value, "IF", line⟩ =
      .ok { position with focus := .head line } := by
    rcases position with ⟨level, around, focus⟩
    obtain rfl := hfocus
    rfl
  have hopen : ({ position with focus := .head line } : Position).read
      ⟨.bracketOpen, opened, bracketLine⟩ =
        .ok (position.inExprs (.condition line bracketLine) [] []) := rfl
  have hclose : (position.inExprs (.condition line bracketLine) [] exprs).read
      ⟨.bracketClose, closed, closedLine⟩ =
        .ok (position.openBody ⟨line, bracketLine, exprs⟩) := rfl
  rw [run_cons hword, run_cons hopen, read_exprs inside, List.nil_append, run_cons hclose]

/-- `;`* `ELSE` -/
theorem read_else {tokens rest : List Token} (helse : Grammar.Else tokens rest)
    (position resumed : Position) (hbetween : position.Between)
    (hresume : ∀ line, position.resume line = .ok resumed) :
    position.run tokens = resumed.run rest := by
  have hfocus := hbetween.focus
  have hslot := hbetween.inSlot
  induction helse with
  | mk line rest =>
      have hread : position.read ⟨.value, "ELSE", line⟩ = .ok resumed := by
        have hstep : position.read ⟨.value, "ELSE", line⟩ = position.openAlternate line := rfl
        rw [hstep, openAlternate, hfocus]
        exact hresume line
      exact run_cons hread rest
  | @stray tokens rest text line others ih =>
      have hread : position.read ⟨.statementEnd, text, line⟩ = .ok position := by
        have hstep : position.read ⟨.statementEnd, text, line⟩ =
            position.endStatement none line := rfl
        rw [hstep, endStatement, hfocus]
        simp [hslot]
      rw [run_cons hread, ih]

/-- With the body of a conditional the conditional is complete. -/
theorem addPhrase_openBody (position : Position) (condition : Condition) (body : Phrase) :
    (position.openBody condition).addPhrase body =
      position.addPhrase (.conditional condition body) := by
  have hslots : (position.openBody condition).level.slots =
      position.level.slots ++ [⟨condition, none⟩] := by
    simp [openBody, Level.slots]
  have htrail : (position.openBody condition).level.trail = position.level.trail := rfl
  have hadd : (position.openBody condition).level.add body =
      position.level.add (.conditional condition body) := by
    rw [Level.add, Level.add, hslots, htrail, ← List.append_assoc, Arm.plugAll_append]
    rfl
  rw [addPhrase, addPhrase, hadd]
  rfl

/-- A conditional whose body has no open `IF` can be taken up again, wherever it
stands. -/
theorem resume?_plugAll (arms : List Arm) (condition : Condition) {body : Phrase}
    (hbody : body.resume? = none) :
    (Arm.plugAll arms (.conditional condition body)).resume? =
      some ⟨arms, condition, body⟩ := by
  induction arms with
  | nil => simp [Arm.plugAll, Phrase.resume?, hbody]
  | cons arm inner ih =>
      rcases arm with ⟨outer, _ | before⟩
      · have hplug : Arm.plugAll (⟨outer, none⟩ :: inner) (.conditional condition body) =
            .conditional outer (Arm.plugAll inner (.conditional condition body)) := rfl
        rw [hplug, Phrase.resume?, ih]
      · have hplug : Arm.plugAll (⟨outer, some before⟩ :: inner) (.conditional condition body) =
            .alternative outer before (Arm.plugAll inner (.conditional condition body)) := rfl
        rw [hplug, Phrase.resume?, ih]
        rfl

theorem resume?_of_openIfs {phrase : Phrase} (hopen : phrase.openIfs = 0) :
    phrase.resume? = none := by
  cases phrase with
  | statement line exprs => rfl
  | block line phrases => rfl
  | conditional condition body => simp [Phrase.openIfs] at hopen
  | alternative condition body alternate =>
      simp only [Phrase.openIfs, Nat.add_eq_zero_iff] at hopen
      rw [Phrase.resume?, resume?_of_openIfs hopen.2]
      rfl

/-- The position in the alternate of a conditional whose body is complete. -/
def openOther (position : Position) (condition : Condition) (body : Phrase) : Position :=
  { position with
    level :=
      { done := position.level.done
        resumed? := some ⟨position.level.trail ++ position.level.slots, condition, body⟩ }
    focus := .phrase }

theorem resume_addPhrase (position : Position) {condition : Condition} {body : Phrase}
    (hnearest : body.openIfs = 0) (line : Nat) :
    (position.addPhrase (.conditional condition body)).resume line =
      .ok (position.openOther condition body) := by
  have hlast := resume?_plugAll (position.level.trail ++ position.level.slots)
    condition (resume?_of_openIfs hnearest)
  have hslot : (position.level.add (.conditional condition body)).inSlot = false := rfl
  rw [resume, addPhrase, Level.resume, hslot]
  simp [Level.add, hlast, Except.map, openOther]

theorem addPhrase_openOther (position : Position) (condition : Condition)
    (body alternate : Phrase) :
    (position.openOther condition body).addPhrase alternate =
      position.addPhrase (.alternative condition body alternate) := by
  have hadd : (position.openOther condition body).level.add alternate =
      position.level.add (.alternative condition body alternate) := by
    simp only [Level.add, openOther, Level.trail, Level.slots, List.map_nil, List.append_nil]
    rw [Arm.plugAll_append]
    rfl
  rw [addPhrase, addPhrase, hadd]
  rfl

theorem inSlot_openBody (position : Position) (condition : Condition) :
    (position.openBody condition).level.inSlot = true := by
  simp [openBody, Level.inSlot, Level.slots]

theorem inSlot_openOther (position : Position) (condition : Condition) (body : Phrase) :
    (position.openOther condition body).level.inSlot = true := rfl

theorem read_statementEnd {position : Position} {first : Nat} {exprs : List Expr} (text : String)
    (line : Nat) :
    (position.inExprs (.statement first) [] exprs).read ⟨.statementEnd, text, line⟩ =
      .ok (position.addPhrase (.statement first exprs)) := rfl

/-- An `ELSE` ends the statement that it follows, if that stands in a slot. -/
theorem read_else_statement (position : Position) (first : Nat) (exprs : List Expr)
    (line : Nat) :
    (position.inExprs (.statement first) [] exprs).read ⟨.value, "ELSE", line⟩ =
      if position.level.inSlot then
        (position.addPhrase (.statement first exprs)).read ⟨.value, "ELSE", line⟩
      else .error (.elseWithoutIf line) := rfl

/-- The position inside a block. -/
def inBlock (position : Position) (line : Nat) : Position :=
  { level := {}, around := (position.level, line) :: position.around }

theorem read_blockOpen {position : Position} (hfocus : position.focus = .phrase) (text : String)
    (line : Nat) :
    position.read ⟨.blockOpen, text, line⟩ = .ok (position.inBlock line) := by
  rcases position with ⟨level, around, focus⟩
  obtain rfl := hfocus
  rfl

theorem read_blockClose (position : Position) (openLine : Nat) (phrases : List Phrase)
    (text : String) (line : Nat) :
    ((position.inBlock openLine).addPhrases phrases).read ⟨.blockClose, text, line⟩ =
      .ok (position.addPhrase (.block openLine phrases)) := rfl

mutual

theorem read_items : {tokens : List Token} → {phrases : List Phrase} → {rest : List Token} →
    (items : Grammar.Items tokens phrases rest) → (position : Position) → position.Between →
    position.run tokens = (position.addPhrases phrases).run rest
  | _, _, _, .nil rest, position, hbetween => by
      rw [hbetween.eq_addPhrases]
  | _, _, _, @Grammar.Items.empty _ _ _ text line others, position, hbetween => by
      have hread : position.read ⟨.statementEnd, text, line⟩ = .ok position := by
        have hstep : position.read ⟨.statementEnd, text, line⟩ =
            position.endStatement none line := rfl
        rw [hstep, endStatement, hbetween.focus]
        simp [hbetween.inSlot]
      rw [run_cons hread, read_items others position hbetween]
  | _, _, _, .cons first others, position, hbetween => by
      rw [read_item first position hbetween.focus, hbetween.addPhrase_eq,
        read_items others _ (between_addPhrases _ _), addPhrases_addPhrases,
        List.singleton_append]

theorem read_item : {tokens : List Token} → {phrase : Phrase} → {rest : List Token} →
    (item : Grammar.Item tokens phrase rest) → (position : Position) →
    position.focus = .phrase → position.run tokens = (position.addPhrase phrase).run rest
  | _, _, _, .statement parts, position, hfocus => by
      rw [read_statement parts position hfocus, run_cons (read_statementEnd _ _)]
  | _, _, _, .block inside, position, hfocus => by
      rw [run_cons (read_blockOpen hfocus _ _), read_items inside _ ⟨rfl, rfl⟩,
        run_cons (read_blockClose position _ _ _ _)]
  | _, _, _, .conditional head slot, position, hfocus => by
      rw [read_head head position hfocus,
        read_slot slot _ rfl (inSlot_openBody position _), addPhrase_openBody]
  | _, _, _, .alternative head slot hnearest word other, position, hfocus => by
      rw [read_head head position hfocus,
        read_slot slot _ rfl (inSlot_openBody position _), addPhrase_openBody,
        read_else word _ _ (between_addPhrase position _) (resume_addPhrase position hnearest),
        read_slot other _ rfl (inSlot_openOther position _ _), addPhrase_openOther]

theorem read_slot : {tokens : List Token} → {phrase : Phrase} → {rest : List Token} →
    (slot : Grammar.Slot tokens phrase rest) → (position : Position) →
    position.focus = .phrase → position.level.inSlot = true →
    position.run tokens = (position.addPhrase phrase).run rest
  | _, _, _, .empty text line rest, position, hfocus, hslot => by
      have hread : position.read ⟨.statementEnd, text, line⟩ =
          .ok (position.addPhrase (.statement line [])) := by
        have hstep : position.read ⟨.statementEnd, text, line⟩ =
            position.endStatement none line := rfl
        rw [hstep, endStatement, hfocus]
        simp only [hslot, if_true]
        rfl
      exact run_cons hread rest
  | _, _, _, .item whole, position, hfocus, _ => read_item whole position hfocus
  | _, _, _, .beforeElse parts, position, hfocus, hslot => by
      rw [read_statement parts position hfocus, run, read_else_statement, if_pos hslot, run]

end

end Position

end SignalScript
