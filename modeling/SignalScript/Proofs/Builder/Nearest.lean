import SignalScript.Proofs.Grammar.Completeness
import SignalScript.Proofs.Builder.Simulation
import SignalScript.Proofs.Tree.Slots

/-!
# No `IF` is passed over

An `ELSE` goes to the innermost conditional that has none, so when a conditional gets one
its body holds no other that could have taken it.  Nothing is read into that body any more,
which makes this an invariant of all levels of a position.  By it, the walk for the next
`ELSE` sees every conditional that any way through bodies and alternates leads to.
-/

namespace SignalScript

namespace Phrase

theorem openIfs_of_resume?_none {phrase : Phrase} (hnearest : phrase.Nearest)
    (hnone : phrase.resume? = none) : phrase.openIfs = 0 := by
  fun_induction Phrase.openIfs phrase with
  | case1 line exprs => rfl
  | case2 line phrases => rfl
  | case3 condition body ih =>
    rw [resume?] at hnone
    cases hbody : body.resume? <;> simp [hbody] at hnone
  | case4 condition body alternate ihBody ihAlternate =>
    rw [resume?, Option.map_eq_none_iff] at hnone
    rw [hnearest.1, ihAlternate hnearest.2 hnone]

end Phrase

/-- Whether the bodies of conditionals on a way, which lie behind it, hold no `IF` without an
`ELSE`. -/
def Arm.AllClosed (arms : List Arm) : Prop :=
  ∀ arm ∈ arms, ∀ body, arm.body? = some body → body.openIfs = 0

namespace Arm

theorem AllClosed.append {left right : List Arm} (hleft : AllClosed left)
    (hright : AllClosed right) : AllClosed (left ++ right) :=
  List.forall_mem_append.mpr ⟨hleft, hright⟩

theorem allClosed_cons {arm : Arm} {inner : List Arm}
    (harm : ∀ body, arm.body? = some body → body.openIfs = 0) (hinner : AllClosed inner) :
    AllClosed (arm :: inner) :=
  List.forall_mem_cons.mpr ⟨harm, hinner⟩

/-- A body that is still to come holds no `IF`. -/
theorem allClosed_awaiting (condition : Condition) : AllClosed [⟨condition, none⟩] := by
  refine allClosed_cons ?_ (List.forall_mem_nil _)
  rintro body ⟨⟩

theorem nearest_plugAll {arms : List Arm} (harms : AllClosed arms) {inside : Phrase}
    (hinside : inside.Nearest) : (plugAll arms inside).Nearest := by
  induction arms with
  | nil => exact hinside
  | cons arm inner ih =>
      obtain ⟨harm, hinner⟩ := List.forall_mem_cons.mp harms
      rcases arm with ⟨condition, _ | body⟩
      · exact ih hinner
      · exact ⟨harm body rfl, ih hinner⟩

end Arm

/-- Where an `ELSE` leads to: the body of its `IF`, and those before the way to it, are
closed. -/
theorem Phrase.Nearest.resume? {phrase : Phrase} (hnearest : phrase.Nearest)
    {resumed : Resumed} (hresume : phrase.resume? = some resumed) :
    resumed.body.openIfs = 0 ∧ Arm.AllClosed resumed.trail := by
  fun_induction Phrase.resume? phrase generalizing resumed with
  | case1 line exprs => cases hresume
  | case2 line phrases => cases hresume
  | case3 condition body inner hbody ih =>
    obtain rfl := Option.some.inj hresume
    obtain ⟨hopen, htrail⟩ := ih hnearest hbody
    exact ⟨hopen, Arm.allClosed_cons nofun htrail⟩
  | case4 condition body hbody ih =>
    obtain rfl := Option.some.inj hresume
    exact ⟨Phrase.openIfs_of_resume?_none hnearest hbody, nofun⟩
  | case5 condition body alternate ih =>
    obtain ⟨inner, hinner, rfl⟩ := Option.map_eq_some_iff.mp hresume
    obtain ⟨hopen, htrail⟩ := ih hnearest.2 hinner
    refine ⟨hopen, Arm.allClosed_cons ?_ htrail⟩
    rintro other ⟨⟩
    exact hnearest.1

/-! ## Levels -/

/-- Whether every `ELSE` on a level, those whose alternates are open included, belongs to the
nearest `IF`. -/
structure Level.Nearest (level : Level) : Prop where
  done : ∀ phrase ∈ level.done, phrase.Nearest
  closed : Arm.AllClosed (level.trail ++ level.slots)

namespace Level

theorem nearest_empty : ({} : Level).Nearest :=
  ⟨nofun, nofun⟩

theorem Nearest.add {level : Level} (hnearest : level.Nearest) {phrase : Phrase}
    (hphrase : phrase.Nearest) : (level.add phrase).Nearest where
  done := List.forall_mem_append.mpr
    ⟨hnearest.done, List.forall_mem_singleton.mpr (Arm.nearest_plugAll hnearest.closed hphrase)⟩
  closed := nofun

theorem Nearest.openBody {level : Level} (hnearest : level.Nearest) (condition : Condition) :
    ({ level with bodies := level.bodies ++ [condition] } : Level).Nearest where
  done := hnearest.done
  closed := by
    have hslots : ({ level with bodies := level.bodies ++ [condition] } : Level).slots =
        level.slots ++ [⟨condition, none⟩] := by
      simp [slots]
    rw [hslots, ← List.append_assoc]
    exact hnearest.closed.append (Arm.allClosed_awaiting condition)

theorem Nearest.resume {level next : Level} (hnearest : level.Nearest) {line : Nat}
    (hresume : level.resume line = .ok next) : next.Nearest := by
  rw [Level.resume] at hresume
  split at hresume
  · cases hresume
  · split at hresume
    · cases hresume
    next resumed hresumed =>
      obtain rfl := Except.ok.inj hresume
      obtain ⟨last, hlast, hphrase⟩ := Option.bind_eq_some_iff.mp hresumed
      have hmem := List.mem_of_getLast? hlast
      obtain ⟨hopen, htrail⟩ := (hnearest.done last hmem).resume? hphrase
      constructor
      case done => exact fun phrase hphrase => hnearest.done phrase (List.dropLast_subset _ hphrase)
      case closed =>
        refine htrail.append (Arm.allClosed_cons ?_ (List.forall_mem_nil _))
        rintro body ⟨⟩
        exact hopen

end Level

/-! ## Positions -/

namespace Position

/-- What a step does to the levels of a position. -/
inductive Moves (position : Position) : Position → Prop
  /-- The step is one inside a phrase. -/
  | inside {next : Position} (hlevel : next.level = position.level)
      (haround : next.around = position.around) : Moves position next
  | openBlock (line : Nat) : Moves position (position.inBlock line)
  | openBody (condition : Condition) : Moves position (position.openBody condition)
  | statement (line : Nat) (exprs : List Expr) :
      Moves position (position.addPhrase (.statement line exprs))
  | closeBlock {outer : Level} {line : Nat} {around : List (Level × Nat)}
      (haround : position.around = (outer, line) :: around) :
      Moves position { level := outer.add (.block line position.level.done), around }
  | resume {next : Position} {line : Nat} (hresume : position.resume line = .ok next) :
      Moves position next
  /-- An `ELSE` ends the statement before it. -/
  | endAndResume (first : Nat) (exprs : List Expr) {next : Position} {line : Nat}
      (hresume : (position.addPhrase (.statement first exprs)).resume line = .ok next) :
      Moves position next

section Moves

variable {position next : Position} {maxDepth : Option Nat} {line : Nat}

private theorem eq_of_enter {opened : Position}
    (henter : position.enter opened maxDepth line = .ok next) : next = opened := by
  rw [enter] at henter
  cases hcheck : Stack.checkDepth maxDepth position.depth line with
  | error error => simp [hcheck, Except.map] at henter
  | ok checked =>
      rw [hcheck] at henter
      exact (Except.ok.inj henter).symm

private theorem levels_enterExpression
    (henter : position.enterExpression maxDepth line = .ok next) :
    next.level = position.level ∧ next.around = position.around := by
  rw [enterExpression] at henter
  split at henter
  · rw [eq_of_enter henter]
    exact ⟨rfl, rfl⟩
  · cases henter
  · obtain rfl := Except.ok.inj henter
    exact ⟨rfl, rfl⟩

private theorem levels_addExpr (position : Position) (expr : Expr) :
    (position.addExpr expr).level = position.level ∧
      (position.addExpr expr).around = position.around := by
  rw [addExpr]
  split
  · exact ⟨rfl, rfl⟩
  · exact ⟨rfl, rfl⟩

private theorem moves_addLeaf {leaf : Expr}
    (hadd : position.addLeaf leaf maxDepth line = .ok next) : position.Moves next := by
  rw [addLeaf] at hadd
  cases henter : position.enterExpression maxDepth line with
  | error error => simp [henter, Except.map] at hadd
  | ok inside =>
      rw [henter] at hadd
      obtain rfl := Except.ok.inj hadd
      obtain ⟨hlevel, haround⟩ := levels_enterExpression henter
      obtain ⟨hsame, hsameAround⟩ := levels_addExpr inside leaf
      exact .inside (hsame.trans hlevel) (hsameAround.trans haround)

private theorem moves_openBlock (hopen : position.openBlock maxDepth line = .ok next) :
    position.Moves next := by
  rw [openBlock] at hopen
  split at hopen
  · rw [eq_of_enter hopen]
    exact .openBlock line
  · cases hopen
  · cases hopen

private theorem moves_openEnclosure (hopen : position.openEnclosure maxDepth line = .ok next) :
    position.Moves next := by
  rw [openEnclosure] at hopen
  split at hopen
  · rw [eq_of_enter hopen]
    exact .inside rfl rfl
  · cases henter : position.enterExpression maxDepth line with
    | error error => simp [henter, bind, Except.bind] at hopen
    | ok inside =>
        obtain ⟨hlevel, haround⟩ := levels_enterExpression henter
        simp only [henter, bind, Except.bind] at hopen
        split at hopen
        · rw [eq_of_enter hopen]
          exact .inside hlevel haround
        · obtain rfl := Except.ok.inj hopen
          exact .inside hlevel haround

private theorem moves_openConditional (hopen : position.openConditional maxDepth line = .ok next) :
    position.Moves next := by
  rw [openConditional] at hopen
  split at hopen
  · rw [eq_of_enter hopen]
    exact .inside rfl rfl
  · cases hopen
  · cases hopen

private theorem moves_endStatement (hend : position.endStatement maxDepth line = .ok next) :
    position.Moves next := by
  rw [endStatement] at hend
  split at hend
  · split at hend
    · rw [eq_of_enter hend]
      exact .statement line []
    · obtain rfl := Except.ok.inj hend
      exact .inside rfl rfl
  · cases hend
  next first done _ =>
    obtain rfl := Except.ok.inj hend
    exact .statement first done
  · cases hend

private theorem moves_closeBracket (hclose : position.closeBracket line = .ok next) :
    position.Moves next := by
  rw [closeBracket] at hclose
  split at hclose
  · split at hclose
    · cases hclose
    · split at hclose <;> cases hclose
  · cases hclose
  · obtain rfl := Except.ok.inj hclose
    exact .inside rfl rfl
  next headLine bracketLine done _ =>
    obtain rfl := Except.ok.inj hclose
    exact .openBody ⟨headLine, bracketLine, done⟩
  · cases hclose

private theorem moves_closeBlock (hclose : position.closeBlock line = .ok next) :
    position.Moves next := by
  rw [closeBlock] at hclose
  split at hclose
  · split at hclose
    · cases hclose
    · split at hclose
      · cases hclose
      next haround =>
        obtain rfl := Except.ok.inj hclose
        exact .closeBlock haround
  · cases hclose
  · cases hclose
  · cases hclose

private theorem moves_openAlternate (hopen : position.openAlternate line = .ok next) :
    position.Moves next := by
  rw [openAlternate] at hopen
  split at hopen
  · exact .resume hopen
  next first done _ =>
    split at hopen
    · exact .endAndResume first done hopen
    · cases hopen
  · cases hopen

/-- Every step is one of these moves. -/
theorem moves_step {step : Builder.Step} (hstep : position.step step maxDepth line = .ok next) :
    position.Moves next := by
  cases step with
  | value text => exact moves_addLeaf hstep
  | operator text => exact moves_addLeaf hstep
  | openBlock => exact moves_openBlock hstep
  | openEnclosure => exact moves_openEnclosure hstep
  | openConditional => exact moves_openConditional hstep
  | openAlternate => exact moves_openAlternate hstep
  | close closer =>
      cases closer with
      | statement => exact moves_endStatement hstep
      | bracket => exact moves_closeBracket hstep
      | block => exact moves_closeBlock hstep

end Moves

/-- Whether every `ELSE` read so far belongs to the nearest `IF`. -/
structure Nearest (position : Position) : Prop where
  level : position.level.Nearest
  around : ∀ outer ∈ position.around, outer.1.Nearest

theorem nearest_start : ({} : Position).Nearest :=
  ⟨Level.nearest_empty, nofun⟩

theorem Nearest.addStatement {position : Position} (hnearest : position.Nearest) (line : Nat)
    (exprs : List Expr) : (position.addPhrase (.statement line exprs)).Nearest :=
  ⟨hnearest.level.add trivial, hnearest.around⟩

theorem Nearest.resume {position next : Position} (hnearest : position.Nearest) {line : Nat}
    (hresume : position.resume line = .ok next) : next.Nearest := by
  rw [Position.resume] at hresume
  cases hlevel : position.level.resume line with
  | error error => simp [hlevel, Except.map] at hresume
  | ok level =>
      rw [hlevel] at hresume
      obtain rfl := Except.ok.inj hresume
      exact ⟨hnearest.level.resume hlevel, hnearest.around⟩

theorem Nearest.moves {position next : Position} (hnearest : position.Nearest)
    (hmoves : position.Moves next) : next.Nearest := by
  cases hmoves with
  | inside hlevel haround => exact ⟨hlevel ▸ hnearest.level, haround ▸ hnearest.around⟩
  | openBlock line =>
      exact ⟨Level.nearest_empty, List.forall_mem_cons.mpr ⟨hnearest.level, hnearest.around⟩⟩
  | openBody condition => exact ⟨hnearest.level.openBody condition, hnearest.around⟩
  | statement line exprs => exact hnearest.addStatement line exprs
  | closeBlock haround =>
      have houter := hnearest.around
      rw [haround] at houter
      obtain ⟨hfirst, hothers⟩ := List.forall_mem_cons.mp houter
      exact ⟨hfirst.add trivial, hothers⟩
  | resume hresume => exact hnearest.resume hresume
  | endAndResume first exprs hresume => exact (hnearest.addStatement first exprs).resume hresume

end Position

end SignalScript
