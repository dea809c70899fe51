import SignalScript.Proofs.Builder.Limit
import SignalScript.Proofs.Parser.Sections

/-!
# Parsing under a limit of depth

A limit of depth only cuts a parse short.  A parser with a limit goes along with the one
without up to the first token that opens a node beyond the limit, and refuses that token.
So what it parses to the end is parsed to the same scripts without the limit.
-/

namespace SignalScript

namespace Builder

variable {limit : Nat} {builder : Builder}

/-- Whether a builder has no limit, and all that it has opened is within one to come. -/
structure Allows (limit : Nat) (builder : Builder) : Prop where
  unlimited : builder.maxDepth = none
  placed : builder.Placed
  within : builder.script.Within limit

/-- Where a builder stands has been opened within the limit. -/
theorem Allows.shallow (hallows : builder.Allows limit) : builder.Shallow limit := by
  have hconsistent := hallows.placed.consistent
  constructor
  case unlimited => exact hallows.unlimited
  case cursor_lt => exact hconsistent.cursor_lt
  case depth_le => exact hallows.within _ hconsistent.cursor_lt hconsistent.cursor_not_leaf

theorem allows_start (limit line : Nat) : (start line none).Allows limit where
  unlimited := rfl
  placed := placed_start line none
  within := by
    intro id hid _
    have hroot : id = Script.root := Nat.lt_one_iff.mp hid
    have hdepth : (start line none).script.depth Script.root = 0 := by
      rw [Script.depth, Script.ancestors]
      rfl
    rw [hroot, hdepth]
    exact Nat.zero_le limit

theorem Allows.pushName (hallows : builder.Allows limit) (part : String) :
    (builder.pushName part).Allows limit where
  unlimited := hallows.unlimited
  placed := hallows.placed.pushName part
  within := by
    have hextends : builder.script.Extends (builder.pushName part).script :=
      Script.extends_of_nodes_eq rfl
    apply hallows.within.of_extends hextends
    exact Script.not_opensBeyond_of_le (Nat.le_refl _)

theorem Allows.endName (hallows : builder.Allows limit) : builder.endName.Allows limit :=
  ⟨hallows.unlimited, hallows.placed.endName, hallows.within⟩

/-- Nothing that is too deep has been opened by a step that opens no such node. -/
theorem Allows.apply (hallows : builder.Allows limit) {next : Builder} {step : Step} {line : Nat}
    (happly : builder.apply step line = .ok next)
    (hopens : ¬ builder.script.OpensBeyond limit next.script) : next.Allows limit := by
  have hgrows := builder.grows_apply line step next happly
  constructor
  case unlimited => exact hgrows.maxDepth.trans hallows.unlimited
  case placed => exact hallows.placed.apply happly
  case within => exact hallows.within.of_extends hgrows.nodes hopens

end Builder

namespace Assembler

/-! ## Tokens that open nodes beyond the limit -/

/-- Whether a token opens a node that is no leaf and deeper than a limit. -/
def deepens (limit : Nat) (assembler : Assembler) (token : Token) : Bool :=
  assembler.builder.any fun before =>
    (assembler.consume token).1.builder.any fun after =>
      before.script.OpensBeyond limit after.script

/-- The first token at which something happens, and the scripts handed out before, unless
the tokens end or meet an error before. -/
def upTo (happens : Assembler → Token → Bool) (assembler : Assembler) :
    List Token → Option (List Script × Token)
  | [] => none
  | token :: rest =>
    if happens assembler token then
      some ([], token)
    else
      match assembler.consume token with
      | (next, .ok none) => next.upTo happens rest
      | (next, .ok (some script)) =>
        (next.upTo happens rest).map fun (scripts, found) => (script :: scripts, found)
      | (_, .error _) => none

/-- The assembler under a limit. -/
def withLimit (assembler : Assembler) (limit : Nat) : Assembler :=
  { assembler with
    maxDepth := some limit
    builder := assembler.builder.map (·.withLimit limit) }

/-- Whether there is no limit, and what is being read is within one to come. -/
structure Allows (limit : Nat) (assembler : Assembler) : Prop where
  unlimited : assembler.maxDepth = none
  builder : assembler.Holds (Builder.Allows limit)

/-- What a token leads to under a limit: the same as without, unless it opens a node that
is too deep. -/
def CutTo (limit line : Nat) (deep : Bool)
    (unlimited limited : Assembler × Except ParseError (Option Script)) : Prop :=
  if deep then limited.2 = .error (.nestingTooDeep (limit + 1) line)
  else unlimited.1.Allows limit ∧ limited = (unlimited.1.withLimit limit, unlimited.2)

variable {limit : Nat} {assembler : Assembler} {builder : Builder}

private theorem cutTo_of_not_deep {line : Nat} {deep : Bool}
    {unlimited limited : Assembler × Except ParseError (Option Script)} (hdeep : deep = false)
    (hallows : unlimited.1.Allows limit)
    (hlimited : limited = (unlimited.1.withLimit limit, unlimited.2)) :
    CutTo limit line deep unlimited limited := by
  rw [hdeep]
  exact ⟨hallows, hlimited⟩

private theorem checkOperator_withLimit (assembler : Assembler) (step : Builder.Step)
    (line : Nat) :
    (assembler.withLimit limit).checkOperator step line =
      (assembler.checkOperator step line).map (·.withLimit limit) := by
  have hstrict : (assembler.withLimit limit).strictOperators = assembler.strictOperators := rfl
  unfold checkOperator
  split
  · split
    · rfl
    · rw [hstrict]
      split
      · rfl
      · rfl
  · rfl

private theorem allows_none (hunlimited : assembler.maxDepth = none)
    (hnone : assembler.builder = none) : assembler.Allows limit :=
  ⟨hunlimited, holds_none hnone⟩

private theorem allows_some (hunlimited : assembler.maxDepth = none)
    (hallows : builder.Allows limit) :
    ({ assembler with builder := some builder } : Assembler).Allows limit :=
  ⟨hunlimited, holds_some hallows⟩

private theorem allows_openScript (hunlimited : assembler.maxDepth = none) (line : Nat) :
    (assembler.openScript line).Allows limit := by
  refine ⟨hunlimited, holds_some ?_⟩
  rw [hunlimited]
  exact Builder.allows_start limit line

private theorem allows_consumeName (hallows : builder.Allows limit) (token : Token) :
    (consumeName builder token).1.Allows limit := by
  unfold consumeName
  split
  case h_1 | h_2 => exact hallows.pushName _
  case h_3 | h_4 | h_5 => exact hallows
  all_goals exact hallows.endName

private theorem consumeName_withLimit (builder : Builder) (token : Token) :
    consumeName (builder.withLimit limit) token =
      ((consumeName builder token).1.withLimit limit, (consumeName builder token).2) := by
  unfold consumeName
  split <;> rfl

private theorem nodeCount_consumeName (builder : Builder) (token : Token) :
    (consumeName builder token).1.script.nodeCount = builder.script.nodeCount := by
  unfold consumeName
  split <;> rfl

/-- The name of a script is no part of its table. -/
private theorem script_consumeName {builder next : Builder} {token : Token}
    (hname : consumeName builder token = (next, true)) : next.script = builder.script := by
  unfold consumeName at hname
  split at hname
  all_goals cases hname
  all_goals rfl

private theorem consumeOutside_withLimit (assembler : Assembler) (token : Token) :
    (assembler.withLimit limit).consumeOutside token =
      (assembler.consumeOutside token).withLimit limit := by
  have hremark : (assembler.withLimit limit).remark = assembler.remark := rfl
  simp only [consumeOutside, hremark]
  split
  · split
    · rfl
    · split
      · rfl
      · rfl
    · rfl
  · rfl

/-! ## One token -/

private theorem cutTo_build (hbetween : assembler.Allows limit) (hnone : assembler.builder = none)
    (hallows : builder.Allows limit) (step : Builder.Step) (line : Nat) :
    CutTo limit line
      ((assembler.build builder step line).1.builder.any fun after =>
        builder.script.OpensBeyond limit after.script)
      (assembler.build builder step line)
      ((assembler.withLimit limit).build (builder.withLimit limit) step line) := by
  have happly := builder.apply_withLimit line hallows.placed hallows.shallow step
  rw [build, build, checkOperator_withLimit, happly]
  cases hcheck : assembler.checkOperator step line with
  | error error =>
      rw [hnone]
      exact ⟨hbetween, rfl⟩
  | ok checked =>
      have hsame := checkOperator_eq hcheck
      have hunlimited : checked.maxDepth = none := by
        rw [hsame]
        exact hbetween.unlimited
      have hchecked : checked.builder = none := by
        rw [hsame]
        exact hnone
      cases hnext : builder.apply step line with
      | error error =>
          simp only [hchecked]
          exact ⟨allows_none hunlimited hchecked, rfl⟩
      | ok next =>
          by_cases hopens : builder.script.OpensBeyond limit next.script
          · simp [Except.map, CutTo, Builder.cutAt, hopens]
          · have hafter := allows_some hunlimited (hallows.apply hnext hopens)
            simp [Except.map, CutTo, Builder.cutAt, hopens, withLimit, hafter]

private theorem cutTo_consumeBody (hbetween : assembler.Allows limit)
    (hnone : assembler.builder = none) (hallows : builder.Allows limit) (token : Token) :
    CutTo limit token.line
      ((assembler.consumeBody builder token).1.builder.any fun after =>
        builder.script.OpensBeyond limit after.script)
      (assembler.consumeBody builder token)
      ((assembler.withLimit limit).consumeBody (builder.withLimit limit) token) := by
  rw [consumeBody, consumeBody]
  cases Action.ofToken token with
  | skip =>
      apply cutTo_of_not_deep
      case hdeep => simp [Script.not_opensBeyond_of_le (Nat.le_refl _)]
      case hallows => exact allows_some hbetween.unlimited hallows
      case hlimited => rfl
  | build step => exact cutTo_build hbetween hnone hallows step token.line
  | remark =>
      apply cutTo_of_not_deep
      case hdeep => simp [hnone]
      case hallows => exact ⟨hbetween.unlimited, holds_none hnone⟩
      case hlimited => rfl
  | nextScript =>
      have hcount : (Builder.start token.line assembler.maxDepth).script.nodeCount ≤
          builder.script.nodeCount :=
        Nat.lt_of_le_of_lt (Nat.zero_le _) hallows.shallow.cursor_lt
      apply cutTo_of_not_deep
      case hdeep => simp [openScript, Script.not_opensBeyond_of_le hcount]
      case hallows => exact allows_openScript hbetween.unlimited token.line
      case hlimited => rfl

private theorem allows_consumeOutside (hallows : assembler.Allows limit)
    (hnone : assembler.builder = none) (token : Token) :
    (assembler.consumeOutside token).Allows limit := by
  unfold consumeOutside
  split
  · split
    · exact allows_none hallows.unlimited hnone
    · split
      · exact allows_none hallows.unlimited hnone
      · exact allows_openScript hallows.unlimited token.line
    · exact hallows
  · exact hallows

/-- A token under a limit is the token without one, refused if it opens a node that is
too deep. -/
theorem cutTo_consume (hallows : assembler.Allows limit) (token : Token) :
    CutTo limit token.line (assembler.deepens limit token) (assembler.consume token)
      ((assembler.withLimit limit).consume token) := by
  have hbetween : ({ assembler with builder := none } : Assembler).Allows limit :=
    allows_none hallows.unlimited rfl
  cases hbuilder : assembler.builder with
  | none =>
      have hlimited : (assembler.withLimit limit).builder = none := by
        rw [withLimit, hbuilder]
        rfl
      rw [deepens, consume, consume, hbuilder, hlimited]
      exact ⟨allows_consumeOutside hallows hbuilder token,
        Prod.ext (consumeOutside_withLimit assembler token) rfl⟩
  | some builder =>
      have hholds := hallows.builder builder hbuilder
      have hnamed := allows_consumeName hholds token
      have hcount := nodeCount_consumeName builder token
      have hlimited : (assembler.withLimit limit).builder = some (builder.withLimit limit) := by
        rw [withLimit, hbuilder]
        rfl
      cases hreading : builder.readingName with
      | false =>
          rw [deepens, consume_body hbuilder hreading, consume_body hlimited hreading, hbuilder]
          exact cutTo_consumeBody hbetween rfl hholds token
      | true =>
          rw [deepens, consume_name hbuilder hreading, consume_name hlimited hreading, hbuilder,
            consumeName_withLimit]
          rcases hname : consumeName builder token with ⟨next, _ | _⟩
          · rw [hname] at hcount hnamed
            apply cutTo_of_not_deep
            case hdeep => simp [Script.not_opensBeyond_of_le (Nat.le_of_eq hcount)]
            case hallows => exact allows_some hallows.unlimited hnamed
            case hlimited => rfl
          · rw [hname] at hnamed
            simp only [Option.any_some, ← script_consumeName hname]
            exact cutTo_consumeBody hbetween rfl hnamed token

/-! ## Runs -/

private theorem within_of_finish (hallows : builder.Allows limit) {line : Nat} {script : Script}
    (hfinish : builder.finish line = .ok script) : script.Within limit := by
  rw [Builder.finish] at hfinish
  split at hfinish
  · rw [← Except.ok.inj hfinish]
    exact hallows.within
  · cases hfinish

/-- A script that has been read is within the limit. -/
private theorem within_of_consume (hallows : assembler.Allows limit) {token : Token}
    {script : Script} (hended : (assembler.consume token).2 = .ok (some script)) :
    script.Within limit := by
  obtain ⟨builder, hbuilder, _, hfinish⟩ := finish_of_consume hended
  exact within_of_finish (hallows.builder builder hbuilder) hfinish

/-- Without a token that opens a node too deep, a limit changes nothing. -/
theorem results_withLimit_of_none (hallows : assembler.Allows limit) (endLine : Nat)
    {tokens : List Token} (hfirst : assembler.upTo (deepens limit) tokens = none) :
    (assembler.withLimit limit).results endLine tokens = assembler.results endLine tokens ∧
      ∀ script, .ok script ∈ assembler.results endLine tokens → script.Within limit := by
  induction tokens generalizing assembler with
  | nil =>
      cases hbuilder : assembler.builder with
      | none => simp [results, withLimit, hbuilder]
      | some builder =>
          have hfinish : (builder.withLimit limit).finish endLine = builder.finish endLine := rfl
          constructor
          · simp [results, withLimit, hbuilder, hfinish]
          · intro script hscript
            rw [results, hbuilder, Option.map_some, Option.mem_toList] at hscript
            have hfinished := Option.some.inj hscript
            exact within_of_finish (hallows.builder builder hbuilder) hfinished
  | cons token rest ih =>
      have hcut := cutTo_consume hallows token
      rw [upTo] at hfirst
      split at hfirst
      · cases hfirst
      next hdeep =>
        rw [CutTo, if_neg hdeep] at hcut
        obtain ⟨hafter, hlimited⟩ := hcut
        rw [results, results, hlimited]
        rcases hconsume : assembler.consume token with ⟨next, error | _ | script⟩
        · simp
        · rw [hconsume] at hafter hfirst
          exact ih hafter hfirst
        · have hwithin := within_of_consume hallows (congrArg Prod.snd hconsume)
          rw [hconsume] at hafter hfirst
          obtain ⟨hsame, hothers⟩ := ih hafter (Option.map_eq_none_iff.mp hfirst)
          refine ⟨congrArg _ hsame, ?_⟩
          rintro other (_ | ⟨_, hother⟩)
          · exact hwithin
          · exact hothers other hother

/-- The first token that opens a node too deep is refused. -/
theorem results_withLimit_of_some (hallows : assembler.Allows limit) (endLine : Nat)
    {tokens : List Token} {scripts : List Script} {token : Token}
    (hfirst : assembler.upTo (deepens limit) tokens = some (scripts, token)) :
    scripts.map .ok <+: assembler.results endLine tokens ∧
      (assembler.withLimit limit).results endLine tokens =
        scripts.map .ok ++ [.error (.nestingTooDeep (limit + 1) token.line)] := by
  induction tokens generalizing assembler scripts with
  | nil => cases hfirst
  | cons head rest ih =>
      have hcut := cutTo_consume hallows head
      rw [upTo] at hfirst
      split at hfirst
      next hdeep =>
        obtain ⟨rfl, rfl⟩ := Prod.mk.inj (Option.some.inj hfirst)
        rw [CutTo, if_pos hdeep] at hcut
        exact ⟨List.nil_prefix, results_error (Prod.ext rfl hcut) endLine rest⟩
      next hdeep =>
        rw [CutTo, if_neg hdeep] at hcut
        obtain ⟨hafter, hlimited⟩ := hcut
        rw [results, results, hlimited]
        rcases hconsume : assembler.consume head with ⟨next, error | _ | script⟩
        · rw [hconsume] at hfirst
          cases hfirst
        · rw [hconsume] at hafter hfirst
          exact ih hafter hfirst
        · rw [hconsume] at hafter hfirst
          obtain ⟨⟨others, _⟩, hothers, hsplit⟩ := Option.map_eq_some_iff.mp hfirst
          obtain ⟨rfl, rfl⟩ := Prod.mk.inj hsplit
          obtain ⟨hbefore, hcutoff⟩ := ih hafter hothers
          exact ⟨List.cons_prefix_cons.mpr ⟨rfl, hbefore⟩, congrArg _ hcutoff⟩

end Assembler

namespace Parser

/-- A parser with a limit of depth hands out the same as one without, up to the first
token that opens a node beyond the limit, which it refuses.  So all that it parses to the
end is within the limit. -/
theorem results_maxDepth (lines : List String) (options : Options) (limit : Nat) :
    let unlimited := ofLines lines { options with maxDepth := none }
    let limited := ofLines lines { options with maxDepth := some limit }
    let first := unlimited.assembler.upTo (Assembler.deepens limit) unlimited.stream.toList
    (first = none → limited.results = unlimited.results) ∧
      (∀ scripts token, first = some (scripts, token) →
        scripts.map .ok <+: unlimited.results ∧
          limited.results =
            scripts.map .ok ++ [.error (.nestingTooDeep (limit + 1) token.line)]) ∧
        ∀ scripts, limited.scripts = .ok scripts →
          unlimited.scripts = .ok scripts ∧ ∀ script ∈ scripts, script.Within limit := by
  intro unlimited limited first
  have hallows : unlimited.assembler.Allows limit := ⟨rfl, Assembler.holds_none rfl⟩
  have hunlimited : unlimited.results =
      unlimited.assembler.results (lineAfter options.lineOffset lines.length)
        unlimited.stream.toList :=
    results_ofLines lines _
  have hlimited : limited.results = (unlimited.assembler.withLimit limit).results
      (lineAfter options.lineOffset lines.length) unlimited.stream.toList :=
    results_ofLines lines _
  refine ⟨?same, ?cut, ?success⟩
  case same =>
    intro hfirst
    rw [hlimited, hunlimited]
    exact (Assembler.results_withLimit_of_none hallows _ hfirst).1
  case cut =>
    intro scripts token hfirst
    rw [hlimited, hunlimited]
    exact Assembler.results_withLimit_of_some hallows _ hfirst
  case success =>
    intro scripts hscripts
    rw [scripts_ok_iff, hlimited] at hscripts
    rw [scripts_ok_iff, hunlimited]
    cases hfirst : first with
    | some found =>
        -- A run that is cut short ends with an error.
        have hcut := (Assembler.results_withLimit_of_some hallows
          (lineAfter options.lineOffset lines.length) hfirst).2
        have hlast : .error (ParseError.nestingTooDeep (limit + 1) found.2.line) ∈
            scripts.map Except.ok := by
          rw [← hscripts, hcut]
          exact List.mem_append_right _ (.head _)
        simp at hlast
    | none =>
        obtain ⟨hsame, hwithin⟩ := Assembler.results_withLimit_of_none hallows
          (lineAfter options.lineOffset lines.length) hfirst
        rw [← hsame]
        refine ⟨hscripts, fun script hscript => hwithin script ?_⟩
        rw [← hsame, hscripts]
        exact List.mem_map_of_mem hscript

/-- The second script is cut short at its bracket, which opens a statement, and in it an
enclosure that is too deep. -/
theorem results_maxDepth_bracket :
    let lines := ["SCRIPT A", "X; SCRIPT B", "(Y);"]
    (∃ script : Script, script.name = "A" ∧
      (ofLines lines { maxDepth := some 1 }).results =
        [.ok script, .error (.nestingTooDeep 2 3)]) ∧
      ∃ scripts, (ofLines lines {}).scripts = .ok scripts ∧
        ∀ script ∈ scripts, script.Within 2 := by
  intro lines
  have hfirst : ((ofLines lines {}).assembler.upTo (Assembler.deepens 1)
      (ofLines lines {}).stream.toList).map (fun found => (found.1.map Script.name, found.2)) =
        some (["A"], ⟨.bracketOpen, "(", 3⟩) := by
    decide +kernel
  have hsuccess : (ofLines lines { maxDepth := some 2 }).scripts.toOption.isSome := by
    decide +kernel
  obtain ⟨⟨scripts, token⟩, hfound, hnames⟩ := Option.map_eq_some_iff.mp hfirst
  obtain ⟨hname, rfl⟩ := Prod.mk.inj hnames
  obtain ⟨script, rfl, hscript⟩ := List.map_eq_singleton_iff.mp hname
  obtain ⟨limited, hlimited⟩ := Option.isSome_iff_exists.mp hsuccess
  constructor
  · exact ⟨script, hscript, ((results_maxDepth lines {} 1).2.1 _ _ hfound).2⟩
  · exact ⟨limited, (results_maxDepth lines {} 2).2.2 limited (ok_of_toOption hlimited)⟩

end Parser

end SignalScript
