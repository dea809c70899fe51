import SignalScript.Proofs.Builder.Closing
import SignalScript.Proofs.Builder.Growth
import SignalScript.Proofs.Parser.Regions

/-!
# Every script that is open can be completed

A parser without a limit of depth refuses a token only if nothing behind it could help.
Whatever it has read without an error, the script that is open is completed by closing
what is open at the cursor, one after the other, until nothing is.
-/

namespace SignalScript

/-! ## Closing -/

/-- A token that closes something is one step of a script, and no operator. -/
private theorem build_of_closer {token : Token} (hcloser : token.lexeme ∈ closers) :
    ∃ step, Action.ofToken token = .build step ∧ ∀ text, step ≠ .operator text := by
  rcases token with ⟨kind, text, line⟩
  simp only [Token.lexeme, closers, List.mem_cons, List.not_mem_nil, or_false,
    Lexeme.mk.injEq] at hcloser
  rcases hcloser with ⟨rfl, rfl⟩ | ⟨rfl, rfl⟩ | ⟨rfl, rfl⟩ | ⟨rfl, rfl⟩
  · exact ⟨.close .statement, rfl, by simp⟩
  · exact ⟨.openEnclosure, rfl, by simp⟩
  · exact ⟨.close .bracket, rfl, by simp⟩
  · exact ⟨.close .block, rfl, by simp⟩

private theorem endsScript_of_closer {token : Token} (hcloser : token.lexeme ∈ closers) :
    token.endsScript = false := by
  have hall : ∀ lexeme ∈ closers, lexeme.kind ≠ .value := by decide
  have hkind : token.kind ≠ .value := hall _ hcloser
  simp [Token.endsScript, hkind]

namespace Position

variable (name : String) (line : Nat)

/-- A builder keeps its nodes while its position reads on. -/
theorem grows_run {position after : Position} {tokens : List Token}
    (hrun : position.run tokens = .ok after) :
    (position.builder name line false none).GrowsTo (after.builder name line false none) := by
  induction tokens generalizing position with
  | nil =>
      obtain rfl := Except.ok.inj hrun
      exact .refl _
  | cons token tokens ih =>
      obtain ⟨middle, hread, hrest⟩ := exists_read_of_run hrun
      refine Builder.GrowsTo.trans ?_ (ih hrest)
      rw [read] at hread
      split at hread
      next step _ =>
        apply (position.builder name line false none).grows_apply token.line step
        rw [apply_builder, hread]
        rfl
      · obtain rfl := Except.ok.inj hread
        exact .refl _

/-- Where nothing is open, the script can end on any line. -/
theorem finish_of_closing {position : Position} (hclosed : position.closing = [])
    (endLine : Nat) :
    (position.builder name line false none).finish endLine =
      .ok (position.builder name line false none).script := by
  obtain ⟨hbetween, haround⟩ := between_of_closing hclosed
  have hfinish := (finish_builder name line false none position endLine _).mpr
    ⟨hbetween, haround, rfl⟩
  rw [Builder.finish] at hfinish ⊢
  split at hfinish
  next hroot => rw [if_pos hroot]
  · cases hfinish

end Position

namespace Assembler

variable {name : String} {line : Nat} {assembler : Assembler} {position after : Position}

/-- A script takes what closes something if its position reads it. -/
private theorem consume_closer
    (hbuilder : assembler.builder = some (position.builder name line false none)) {token : Token}
    (hcloser : token.lexeme ∈ closers) (hread : position.read token = .ok after) :
    assembler.consume token =
      ({ assembler with builder := some (after.builder name line false none) }, .ok none) := by
  obtain ⟨step, haction, hoperator⟩ := build_of_closer hcloser
  have hstep : position.step step none token.line = .ok after := by
    rw [Position.read, haction] at hread
    exact hread
  have hcheck : ({ assembler with builder := none } : Assembler).checkOperator step token.line =
      .ok { assembler with builder := none } := by
    cases step with
    | operator text => exact absurd rfl (hoperator text)
    | _ => rfl
  rw [consume_body hbuilder rfl, consumeBody, haction]
  simp only [build, hcheck, Position.apply_builder, hstep, Except.map]

private theorem feed_closers
    (hbuilder : assembler.builder = some (position.builder name line false none))
    {tokens : List Token} (hclosers : ∀ token ∈ tokens, token.lexeme ∈ closers)
    (hrun : position.run tokens = .ok after) :
    assembler.feed tokens =
      .ok { assembler with builder := some (after.builder name line false none) } := by
  induction tokens generalizing assembler position with
  | nil =>
      obtain rfl := Except.ok.inj hrun
      rw [← hbuilder]
      rfl
  | cons token tokens ih =>
      obtain ⟨middle, hread, hrest⟩ := Position.exists_read_of_run hrun
      rw [feed_cons (consume_closer hbuilder (hclosers token (.head _)) hread)]
      exact ih rfl (fun other hother => hclosers other (.tail _ hother)) hrest

/-- Whether closing what is open at the cursor, as often as there is something, takes
some tokens and leads to another assembler. -/
inductive Closes (line : Nat) : Assembler → List Token → Assembler → Prop
  | closed {assembler : Assembler} {builder : Builder}
    (hbuilder : assembler.builder = some builder) (hclosed : builder.closing = []) :
    Closes line assembler [] assembler
  | step {assembler next ended : Assembler} {builder : Builder} {rest : List Token}
    (hbuilder : assembler.builder = some builder) (hopen : builder.closing ≠ [])
    (hfeed : assembler.feed (TokenStream.locate line builder.closing) = .ok next)
    (hrest : Closes line next rest ended) :
    Closes line assembler (TokenStream.locate line builder.closing ++ rest) ended

theorem Closes.feed {closing : List Token} {ended : Assembler} {closeLine : Nat}
    (hcloses : assembler.Closes closeLine closing ended) : assembler.feed closing = .ok ended := by
  induction hcloses with
  | closed hbuilder hclosed => rfl
  | step hbuilder hopen hfeed hrest ih => exact (feed_append hfeed _).trans ih

private theorem closers_locate {lexemes : List Lexeme} (hsubset : lexemes ⊆ closers)
    (closeLine : Nat) : ∀ token ∈ TokenStream.locate closeLine lexemes, token.lexeme ∈ closers := by
  intro token hmem
  obtain ⟨lexeme, hlexeme, rfl⟩ := List.mem_map.mp hmem
  exact hsubset hlexeme

/-- A script that is open behind its name can be closed.  Each round leaves less open, and
what a position allows to close is what the cursor calls for. -/
private theorem exists_closes_body
    (hbuilder : assembler.builder = some (position.builder name line false none))
    (closeLine : Nat) :
    ∃ (closing : List Token) (after : Position),
      assembler.Closes closeLine closing
        { assembler with builder := some (after.builder name line false none) } ∧
      (∀ token ∈ closing, token.lexeme ∈ closers) ∧
        (position.builder name line false none).GrowsTo (after.builder name line false none) ∧
          after.closing = [] := by
  induction hsize : position.openings using Nat.strongRecOn generalizing assembler position with
  | ind size ih =>
      subst hsize
      have hcalls := Position.closing_builder name line none position
      by_cases hopen : position.closing = []
      · refine ⟨[], position, ?_, nofun, .refl _, hopen⟩
        rw [← hbuilder]
        exact .closed hbuilder (hcalls.trans hopen)
      · obtain ⟨middle, hrun, hless⟩ := Position.closable_of_open hopen closeLine
        have hclosers := closers_locate position.closing_subset closeLine
        have hfeed := feed_closers hbuilder hclosers hrun
        let next : Assembler :=
          { assembler with builder := some (middle.builder name line false none) }
        have hnext : next.builder = some (middle.builder name line false none) := rfl
        obtain ⟨rest, after, hrest, hothers, hgrows, hclosed⟩ := ih _ hless hnext rfl
        have hround := Closes.step hbuilder (by rw [hcalls]; exact hopen)
          (by rw [hcalls]; exact hfeed) hrest
        rw [hcalls] at hround
        refine ⟨_, after, hround, ?_, (Position.grows_run name line hrun).trans hgrows, hclosed⟩
        intro token hmem
        rcases List.mem_append.mp hmem with hfirst | hlast
        · exact hclosers token hfirst
        · exact hothers token hlast

/-- Before that, a semicolon ends a name that may still go on. -/
private theorem exists_closes {readingName : Bool}
    (hbuilder : assembler.builder = some (position.builder name line readingName none))
    (closeLine : Nat) :
    ∃ (closing : List Token) (after : Position),
      assembler.Closes closeLine closing
        { assembler with builder := some (after.builder name line false none) } ∧
      (∀ token ∈ closing, token.lexeme ∈ closers) ∧
        (position.builder name line false none).GrowsTo (after.builder name line false none) ∧
          after.closing = [] := by
  cases readingName with
  | false => exact exists_closes_body hbuilder closeLine
  | true =>
      let named : Assembler :=
        { assembler with builder := some (position.builder name line false none) }
      obtain ⟨rest, after, hrest, hothers, hbody⟩ :=
        exists_closes_body (show named.builder = _ from rfl) closeLine
      have hconsume : assembler.consume ⟨.statementEnd, ";", closeLine⟩ = (named, .ok none) := by
        rw [consume_name hbuilder rfl]
        rfl
      refine ⟨⟨.statementEnd, ";", closeLine⟩ :: rest, after, ?_, ?_, hbody⟩
      · exact .step hbuilder nofun (feed_cons hconsume []) hrest
      · exact List.forall_mem_cons.mpr ⟨.head _, hothers⟩

/-! ## Reading on -/

/-- The results of tokens that are read without an error come before all others. -/
theorem results_of_feed {next : Assembler} {tokens : List Token}
    (hfeed : assembler.feed tokens = .ok next) :
    ∃ scripts : List Script, ∀ (endLine : Nat) (rest : List Token),
      assembler.results endLine (tokens ++ rest) =
        scripts.map .ok ++ next.results endLine rest := by
  induction tokens generalizing assembler with
  | nil =>
      obtain rfl := Except.ok.inj hfeed
      exact ⟨[], fun _ _ => rfl⟩
  | cons token tokens ih =>
      obtain ⟨middle, ended, hconsume, hrest⟩ := exists_consume_of_feed hfeed
      obtain ⟨scripts, hresults⟩ := ih hrest
      cases ended with
      | none =>
          refine ⟨scripts, ?_⟩
          intro endLine rest
          exact (results_skip hconsume endLine _).trans (hresults endLine rest)
      | some script =>
          refine ⟨script :: scripts, ?_⟩
          intro endLine rest
          rw [List.cons_append, results_script hconsume, hresults]
          rfl

/-- Tokens that end no script leave only the results behind them. -/
theorem results_of_inner {next : Assembler} {tokens : List Token}
    (hends : ∀ token ∈ tokens, token.endsScript = false)
    (hfeed : assembler.feed tokens = .ok next) (endLine : Nat) (rest : List Token) :
    assembler.results endLine (tokens ++ rest) = next.results endLine rest := by
  induction tokens generalizing assembler with
  | nil =>
      obtain rfl := Except.ok.inj hfeed
      rfl
  | cons token tokens ih =>
      obtain ⟨middle, ended, hconsume, hrest⟩ := exists_consume_of_feed hfeed
      cases ended with
      | none =>
          rw [List.cons_append, results_skip hconsume]
          exact ih (fun other hother => hends other (.tail _ hother)) hrest
      | some script =>
          obtain ⟨_, _, hended, _⟩ := finish_of_consume (congrArg Prod.snd hconsume)
          rw [hends token (.head _)] at hended
          cases hended

/-- Whether whatever ends a script hands it out. -/
structure HandsOut (assembler : Assembler) (script : Script) : Prop where
  atEnd (endLine : Nat) : assembler.results endLine [] = [.ok script]
  atBoundary {boundary : Token} (hends : boundary.endsScript = true) (endLine : Nat)
    (rest : List Token) :
    ∃ others, assembler.results endLine (boundary :: rest) = .ok script :: others

private theorem consume_boundary {builder : Builder}
    (hbuilder : assembler.builder = some builder) (hname : builder.readingName = false)
    {token : Token} (hends : token.endsScript = true) :
    (assembler.consume token).2 = (builder.finish token.line).map some := by
  rw [consume_body hbuilder hname, consumeBody]
  rcases Token.endsScript_iff.mp hends with hrem | hscript
  · rw [Action.ofToken_remark hrem]
  · rw [Action.ofToken_nextScript hscript]

private theorem handsOut_of_closing
    (hbuilder : assembler.builder = some (position.builder name line false none))
    (hclosed : position.closing = []) :
    assembler.HandsOut (position.builder name line false none).script := by
  have hfinish := Position.finish_of_closing name line hclosed
  constructor
  case atEnd =>
    intro endLine
    rw [results, hbuilder]
    exact congrArg ([·]) (hfinish endLine)
  case atBoundary =>
    intro boundary hends endLine rest
    have hboundary := consume_boundary hbuilder rfl hends
    rw [hfinish boundary.line] at hboundary
    exact ⟨_, results_script (Prod.ext rfl hboundary) endLine rest⟩

end Assembler

namespace Region

/-- An assembler that has read tokens without an error is where the scanner is. -/
theorem fits_feed {options : Options} {place : Place} {assembler next : Assembler}
    (hfits : Fits options place assembler) {tokens : List Token}
    (hfeed : assembler.feed tokens = .ok next) : ∃ after, Fits options after next := by
  induction tokens generalizing place assembler with
  | nil =>
      obtain rfl := Except.ok.inj hfeed
      exact ⟨place, hfits⟩
  | cons token tokens ih =>
      have hagree := agree_consume hfits token
      obtain ⟨middle, ended, hconsume, hrest⟩ := Assembler.exists_consume_of_feed hfeed
      rw [hconsume] at hagree
      exact ih hagree.1 hrest

/-- The builder of an assembler that fits stands at a position and has the limit of the
settings. -/
theorem Fits.placed {options : Options} {place : Place} {assembler : Assembler}
    (hfits : Fits options place assembler) {builder : Builder}
    (hbuilder : assembler.builder = some builder) :
    builder.Placed ∧ builder.maxDepth = options.maxDepth := by
  have hbuilds := hfits.builder
  rw [hbuilder] at hbuilds
  cases place with
  | outside remark => cases hbuilds
  | heading line name =>
      obtain rfl := Option.some.inj hbuilds
      exact ⟨(Builder.placed_start line options.maxDepth).pushName _, rfl⟩
  | inside line name body =>
      obtain ⟨reading, hbody, hreading⟩ := hbuilds
      obtain rfl := Option.some.inj hreading
      have hcontinues := continues_named hbody
      exact ⟨hcontinues.placed, hcontinues.maxDepth⟩

end Region

/-- Whether a script is what the one of a builder has become. -/
structure Builder.Becomes (builder : Builder) (script : Script) : Prop where
  name : script.name = builder.script.name
  line : script.line = builder.script.line
  nodes : builder.script.Extends script

namespace Parser

/-- A parser of tokens, the last of which stands on a line. -/
def ofTokens (tokens : List Token) (endLine : Nat) (options : Options) : Parser :=
  { stream := { lines := [], lineNumber := endLine, queue := tokens }
    assembler := .ofOptions options }

theorem results_ofTokens (tokens : List Token) (endLine : Nat) (options : Options) :
    (ofTokens tokens endLine options).results =
      (Assembler.ofOptions options).results endLine tokens := by
  have htokens : (ofTokens tokens endLine options).stream.toList = tokens :=
    List.append_nil tokens
  rw [results_eq_pending, pending, htokens]
  rfl

/-- Whatever a parser without a limit of depth has read without an error, a script that
is open there is completed by closing what the cursor calls for, again and again.  Any
end behind that then hands it out. -/
theorem exists_closing {options : Options} (hunlimited : options.maxDepth = none)
    {tokens : List Token} {assembler : Assembler}
    (hfeed : (Assembler.ofOptions options).feed tokens = .ok assembler) {builder : Builder}
    (hbuilder : assembler.builder = some builder) (line : Nat) :
    ∃ (closing : List Token) (ended : Assembler) (scripts : List Script) (script : Script),
      assembler.Closes line closing ended ∧
      (∀ token ∈ closing, token.lexeme ∈ closers) ∧
      builder.Becomes script ∧
      (∀ endLine, (ofTokens tokens endLine options).results =
        scripts.map .ok ++ [builder.finish endLine]) ∧
      (∀ endLine, (ofTokens (tokens ++ closing) endLine options).results =
        scripts.map .ok ++ [.ok script]) ∧
      ∀ boundary : Token, boundary.endsScript = true → ∀ endLine rest, ∃ others,
        (ofTokens (tokens ++ closing ++ boundary :: rest) endLine options).results =
          scripts.map .ok ++ .ok script :: others := by
  have hstart : Region.Fits options (.outside false) (.ofOptions options) := ⟨rfl, rfl, rfl, rfl⟩
  obtain ⟨place, hfits⟩ := Region.fits_feed hstart hfeed
  obtain ⟨⟨name, scriptLine, readingName, maxDepth, position, rfl⟩, hlimit⟩ :=
    hfits.placed hbuilder
  obtain rfl : maxDepth = none := hlimit.trans hunlimited
  obtain ⟨closing, after, hcloses, hclosers, hgrows, hclosed⟩ :=
    Assembler.exists_closes hbuilder line
  let ended : Assembler :=
    { assembler with builder := some (after.builder name scriptLine false none) }
  have hready : ended.HandsOut (after.builder name scriptLine false none).script :=
    Assembler.handsOut_of_closing rfl hclosed
  obtain ⟨scripts, hresults⟩ := Assembler.results_of_feed hfeed
  have hthrough : ∀ endLine rest,
      (ofTokens (tokens ++ closing ++ rest) endLine options).results =
        scripts.map .ok ++ ended.results endLine rest := by
    intro endLine rest
    have hinner : ∀ token ∈ closing, token.endsScript = false :=
      fun token hmem => endsScript_of_closer (hclosers token hmem)
    rw [results_ofTokens, List.append_assoc, hresults,
      Assembler.results_of_inner hinner hcloses.feed]
  refine ⟨closing, ended, scripts, (after.builder name scriptLine false none).script, hcloses,
    hclosers, ⟨rfl, rfl, hgrows.nodes⟩, ?before, ?atEnd, ?atBoundary⟩
  case before =>
    intro endLine
    have hopen := hresults endLine []
    rw [List.append_nil] at hopen
    rw [results_ofTokens, hopen, Assembler.results, hbuilder]
    rfl
  case atEnd =>
    intro endLine
    have hend := hthrough endLine []
    rw [List.append_nil] at hend
    rw [hend, hready.atEnd]
  case atBoundary =>
    intro boundary hends endLine rest
    obtain ⟨others, hothers⟩ := hready.atBoundary hends endLine rest
    exact ⟨others, by rw [hthrough, hothers]⟩

/-- A condition that is open in a block gets its brackets and an empty body, and the block
its brace. -/
theorem exists_closing_condition :
    let tokens := tokenize "SCRIPT A; \x7bIF ((X"
    ∃ closing script, (∀ token ∈ closing, token.lexeme ∈ closers) ∧ script.name = "A" ∧
      (ofTokens (tokens ++ closing) 2 {}).results = [.ok script] := by
  intro tokens
  have hread : (((Assembler.ofOptions {}).feed tokens).toOption.bind Assembler.builder).map
      (·.script.name) = some "A" := by
    decide +kernel
  have hsingle : (ofTokens tokens 2 {}).results.length = 1 := by decide +kernel
  obtain ⟨builder, hfound, hname⟩ := Option.map_eq_some_iff.mp hread
  obtain ⟨assembler, hassembler, hbuilder⟩ := Option.bind_eq_some_iff.mp hfound
  obtain ⟨closing, ended, scripts, script, -, hclosers, hbecomes, hopen, hclosed, -⟩ :=
    exists_closing rfl (ok_of_toOption hassembler) hbuilder 2
  refine ⟨closing, script, hclosers, hbecomes.name.trans hname, ?_⟩
  have hnone : scripts = [] := by
    rw [hopen, List.length_append, List.length_map, List.length_singleton] at hsingle
    exact List.length_eq_zero_iff.mp (by omega)
  rw [hclosed, hnone]
  rfl

end Parser

end SignalScript
