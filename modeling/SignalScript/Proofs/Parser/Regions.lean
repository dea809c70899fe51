import SignalScript.Proofs.Parser.Safety
import SignalScript.Proofs.Parser.Sections

/-!
# Scripts on their own

A scanner that knows nothing of trees cuts the tokens of a text into regions, one for
each script.  Building every region on its own, and stopping behind the first error,
gives the results of a parser.  So a script depends on the tokens of its region and
on nothing before or behind it.
-/

namespace SignalScript

/-- The tokens that one script is built from. -/
structure Region where
  /-- The line of its `SCRIPT`. -/
  line : Nat
  /-- The tokens behind it, up to the one that ends the name. -/
  name : List Token
  /-- The tokens behind the name. -/
  body : List Token
  /-- The line that the script ends on. -/
  endLine : Nat
  deriving DecidableEq, Repr, Inhabited

namespace Region

/-! ## Cutting -/

/-- Where the scanner is. -/
inductive Place where
  | outside (remark : Bool)
  | heading (line : Nat) (name : List Token)
  | inside (line : Nat) (name body : List Token)
  deriving DecidableEq, Repr, Inhabited

namespace Place

/-- Whether a remark is open. -/
def remark : Place → Bool
  | .outside remark => remark
  | .heading _ _ | .inside _ _ _ => false

/-- Takes a token: the place behind it, and the region that it closes. -/
def next (place : Place) (token : Token) : Place × List Region :=
  match place with
  | .outside remark =>
    if token.lexeme = ⟨.value, "REM"⟩ then (.outside !remark, [])
    else if token.lexeme = ⟨.value, "SCRIPT"⟩ then
      (if remark then .outside false else .heading token.line [], [])
    else (.outside remark, [])
  | .heading line name =>
    match token.kind with
    | .value | .operator | .separator | .tab | .comma => (.heading line (name ++ [token]), [])
    | .lineEnd | .statementEnd => (.inside line name [], [])
    | .bracketOpen | .bracketClose | .blockOpen | .blockClose => (.inside line name [token], [])
  | .inside line name body =>
    if token.lexeme = ⟨.value, "REM"⟩ then (.outside true, [⟨line, name, body, token.line⟩])
    else if token.lexeme = ⟨.value, "SCRIPT"⟩ then
      (.heading token.line [], [⟨line, name, body, token.line⟩])
    else (.inside line name (body ++ [token]), [])

/-- The region that the end of the text closes. -/
def close (place : Place) (endLine : Nat) : List Region :=
  match place with
  | .outside _ => []
  | .heading line name => [⟨line, name, [], endLine⟩]
  | .inside line name body => [⟨line, name, body, endLine⟩]

end Place

/-- The regions of tokens that end on a line. -/
def regions (endLine : Nat) : Place → List Token → List Region
  | place, [] => place.close endLine
  | place, token :: rest => (place.next token).2 ++ regions endLine (place.next token).1 rest

/-! ## Building -/

/-- The name that tokens spell. -/
def nameText (tokens : List Token) : String :=
  String.join ((tokens.filter fun token =>
    token.kind = .value ∨ token.kind = .operator).map Token.text)

/-- A fresh builder that has read the name. -/
def named (options : Options) (line : Nat) (name : List Token) : Builder :=
  ((Builder.start line options.maxDepth).pushName (nameText name)).endName

/-- Takes a token behind the name. -/
def take (options : Options) (builder : Builder) (token : Token) : Except ParseError Builder :=
  match Action.ofToken token with
  | .build (.operator text) =>
    if options.strictOperators && !(OperatorKind.ofText text).isKnown then
      .error (.invalidOperator text token.line)
    else
      builder.apply (.operator text) token.line
  | .build step => builder.apply step token.line
  | _ => .ok builder

/-- The script of a region, or the first error in it. -/
def build (options : Options) (region : Region) : Except ParseError Script := do
  let builder ← region.body.foldlM (take options) (named options region.line region.name)
  builder.finish region.endLine

end Region

/-- The results up to the first error, which is the last one. -/
def cutAfterError {ε α : Type} : List (Except ε α) → List (Except ε α)
  | [] => []
  | .ok result :: rest => .ok result :: cutAfterError rest
  | .error error :: _ => [.error error]

namespace Assembler

/-! ## Tokens outside -/

private theorem consumeOutside_eq (assembler : Assembler) (token : Token) :
    assembler.consumeOutside token =
      if token.lexeme = ⟨.value, "REM"⟩ then { assembler with remark := !assembler.remark }
      else if token.lexeme = ⟨.value, "SCRIPT"⟩ then
        if assembler.remark then { assembler with remark := false }
        else assembler.openScript token.line
      else assembler := by
  simp only [consumeOutside, Token.lexeme, Lexeme.mk.injEq]
  split
  next hkind =>
    split
    next hrem => simp [hkind, hrem]
    next hscript => simp [hkind, hscript]
    next hrem hscript => rw [if_neg fun h => hrem h.2, if_neg fun h => hscript h.2]
  next hkind => simp [hkind]

/-! ## Tokens inside -/

private theorem checkOperator_take {options : Options} {assembler : Assembler}
    (hstrict : assembler.strictOperators = options.strictOperators) (builder : Builder)
    {token : Token} {step : Builder.Step} (haction : Action.ofToken token = .build step) :
    match assembler.checkOperator step token.line with
    | .error error => Region.take options builder token = .error error
    | .ok _ => Region.take options builder token = builder.apply step token.line := by
  cases step with
  | operator text =>
      simp only [checkOperator, Region.take, haction, hstrict]
      cases (OperatorKind.ofText text).isKnown with
      | true => simp
      | false =>
          cases options.strictOperators with
          | true => simp
          | false => simp
  | value | openBlock | openEnclosure | openConditional | openAlternate | close =>
      simp [checkOperator, Region.take, haction]

/-- An assembler takes a token that ends no script as a lone builder does. -/
private theorem consumeBody_take {options : Options} {assembler : Assembler}
    (hstrict : assembler.strictOperators = options.strictOperators) (builder : Builder)
    {token : Token} (hrem : token.lexeme ≠ ⟨.value, "REM"⟩)
    (hscript : token.lexeme ≠ ⟨.value, "SCRIPT"⟩) :
    match Region.take options builder token with
    | .error error => (assembler.consumeBody builder token).2 = .error error
    | .ok next => (assembler.consumeBody builder token).2 = .ok none ∧
        (assembler.consumeBody builder token).1.builder = some next ∧
        (assembler.consumeBody builder token).1.remark = assembler.remark := by
  rcases Action.ofToken_inside hrem hscript with hskip | ⟨step, hstep⟩
  · simp [Region.take, consumeBody, hskip]
  · have hcheck := checkOperator_take hstrict builder hstep
    simp only [consumeBody, hstep, build]
    cases hchecked : assembler.checkOperator step token.line with
    | error error =>
        rw [hchecked] at hcheck
        simp [hcheck]
    | ok checked =>
        rw [hchecked] at hcheck
        have hremark : checked.remark = assembler.remark := by
          rw [checkOperator_eq hchecked]
        rw [hcheck]
        cases builder.apply step token.line with
        | error error => simp
        | ok next => simp [hremark]

end Assembler

namespace Region

open Assembler

/-- What a builder has in common with one that has read less of the same body. -/
structure Continues (builder next : Builder) : Prop where
  placed : next.Placed
  readingName : next.readingName = builder.readingName
  name : next.script.name = builder.script.name
  maxDepth : next.maxDepth = builder.maxDepth

private theorem continues_take {options : Options} {builder next : Builder} {token : Token}
    (hplaced : builder.Placed) (htake : take options builder token = .ok next) :
    Continues builder next := by
  have happly : ∀ {step : Builder.Step}, builder.apply step token.line = .ok next →
      Continues builder next := by
    intro step happly
    have hnext := hplaced.apply happly
    obtain ⟨name, line, readingName, maxDepth, position, rfl⟩ := hplaced
    obtain ⟨after, _, rfl⟩ := Position.exists_step_of_apply _ _ _ _ happly
    exact ⟨hnext, rfl, rfl, rfl⟩
  unfold take at htake
  split at htake
  · split at htake
    · cases htake
    · exact happly htake
  · exact happly htake
  · obtain rfl := Except.ok.inj htake
    exact ⟨hplaced, rfl, rfl, rfl⟩

/-- The first token of a body is taken, and then the others. -/
theorem exists_take_of_body {options : Options} {builder reading : Builder} {token : Token}
    {body : List Token}
    (hbody : (token :: body).foldlM (take options) builder = .ok reading) :
    ∃ next, take options builder token = .ok next ∧
      body.foldlM (take options) next = .ok reading := by
  rw [List.foldlM_cons] at hbody
  cases htake : take options builder token with
  | error error => simp [htake, bind, Except.bind] at hbody
  | ok next =>
      rw [htake] at hbody
      exact ⟨next, rfl, hbody⟩

private theorem continues_body {options : Options} {builder next : Builder}
    {tokens : List Token} (hplaced : builder.Placed)
    (hbody : tokens.foldlM (take options) builder = .ok next) : Continues builder next := by
  induction tokens generalizing builder with
  | nil =>
      obtain rfl := Except.ok.inj hbody
      exact ⟨hplaced, rfl, rfl, rfl⟩
  | cons token tokens ih =>
      obtain ⟨middle, htake, hrest⟩ := exists_take_of_body hbody
      have hmiddle := continues_take hplaced htake
      have hnext := ih hmiddle.placed hrest
      exact ⟨hnext.placed, hnext.readingName.trans hmiddle.readingName,
        hnext.name.trans hmiddle.name, hnext.maxDepth.trans hmiddle.maxDepth⟩

/-- A builder behind a name. -/
theorem continues_named {options : Options} {line : Nat} {name body : List Token}
    {reading : Builder}
    (hbody : body.foldlM (take options) (named options line name) = .ok reading) :
    Continues (named options line name) reading :=
  continues_body ((Builder.placed_start line options.maxDepth).pushName _).endName hbody

/-- A region is finished where its body has been read. -/
private theorem build_of_body {options : Options} {line : Nat} {name body : List Token}
    {reading : Builder}
    (hbody : body.foldlM (take options) (named options line name) = .ok reading) (ends : Nat) :
    build options ⟨line, name, body, ends⟩ = reading.finish ends := by
  rw [build, hbody]
  rfl

/-- A region that is built gives a script with its name. -/
theorem name_build {options : Options} {region : Region} {script : Script}
    (hbuild : region.build options = .ok script) : script.name = nameText region.name := by
  cases hbody : region.body.foldlM (take options) (named options region.line region.name) with
  | error error => simp [build, hbody, bind, Except.bind] at hbuild
  | ok reading =>
      have hfinish : reading.finish region.endLine = .ok script :=
        (build_of_body hbody region.endLine).symm.trans hbuild
      rw [Builder.finish] at hfinish
      split at hfinish
      · rw [← Except.ok.inj hfinish, (continues_named hbody).name]
        exact String.empty_append
      · cases hfinish

/-! ## The scanner beside the assembler -/

/-- The builder that an assembler has where the scanner is at a place. -/
def Place.Builds (options : Options) : Place → Option Builder → Prop
  | .outside _, builder => builder = none
  | .heading line name, builder =>
    builder = some ((Builder.start line options.maxDepth).pushName (nameText name))
  | .inside line name body, builder =>
    ∃ reading, body.foldlM (take options) (named options line name) = .ok reading ∧
      builder = some reading

/-- Whether an assembler is where the scanner is. -/
structure Fits (options : Options) (place : Place) (assembler : Assembler) : Prop where
  strict : assembler.strictOperators = options.strictOperators
  depth : assembler.maxDepth = options.maxDepth
  remark : assembler.remark = place.remark
  builder : place.Builds options assembler.builder

/-- What a token does to the assembler and to the scanner. -/
def Agree (options : Options) (place : Place) (token : Token) :
    Assembler × Except ParseError (Option Script) → Prop
  | (next, .ok ended) =>
    Fits options (place.next token).1 next ∧
      (place.next token).2.map (build options) = ended.toList.map .ok
  | (_, .error error) =>
    ∀ endLine rest, ∃ region others,
      regions endLine place (token :: rest) = region :: others ∧
        region.build options = .error error

/-- The region of a body that has been begun goes on with it. -/
theorem regions_inside (endLine line : Nat) (name body tokens : List Token) :
    ∃ more ends others, regions endLine (.inside line name body) tokens =
      ⟨line, name, body ++ more, ends⟩ :: others := by
  induction tokens generalizing body with
  | nil => exact ⟨[], endLine, [], by simp [regions, Place.close]⟩
  | cons token tokens ih =>
      rw [regions, Place.next]
      split
      · exact ⟨[], token.line, _, by rw [List.append_nil]; rfl⟩
      · split
        · exact ⟨[], token.line, _, by rw [List.append_nil]; rfl⟩
        · obtain ⟨more, ends, others, hregions⟩ := ih (body ++ [token])
          exact ⟨token :: more, ends, others, by simp [hregions]⟩

/-- An error in a body is the one of its region. -/
private theorem build_error {options : Options} {line : Nat} {name body : List Token}
    {error : ParseError}
    (hbody : body.foldlM (take options) (named options line name) = .error error)
    (more : List Token) (ends : Nat) :
    build options ⟨line, name, body ++ more, ends⟩ = .error error := by
  simp [build, hbody, bind, Except.bind]

private theorem body_concat {options : Options} {line : Nat} {name body : List Token}
    {reading : Builder}
    (hbody : body.foldlM (take options) (named options line name) = .ok reading)
    (token : Token) :
    (body ++ [token]).foldlM (take options) (named options line name) =
      take options reading token := by
  simp only [List.foldlM_append, hbody, List.foldlM_cons, List.foldlM_nil, bind, Except.bind]
  cases take options reading token with
  | error error => rfl
  | ok after => rfl

/-- A token that goes into the body. -/
private theorem agree_take {options : Options} {place : Place} {assembler : Assembler}
    (hfits : Fits options place assembler) (hremark : place.remark = false) {token : Token}
    {line : Nat} {name body : List Token} {reading : Builder}
    (hnext : place.next token = (.inside line name (body ++ [token]), []))
    (hbody : body.foldlM (take options) (named options line name) = .ok reading)
    (hrem : token.lexeme ≠ ⟨.value, "REM"⟩) (hscript : token.lexeme ≠ ⟨.value, "SCRIPT"⟩)
    (hconsume : assembler.consume token =
      ({ assembler with builder := none } : Assembler).consumeBody reading token) :
    Agree options place token (assembler.consume token) := by
  have hsettings := settings_consume assembler token
  have hbegun := body_concat hbody token
  have hstrict : ({ assembler with builder := none } : Assembler).strictOperators =
      options.strictOperators := hfits.strict
  have htake := consumeBody_take hstrict reading hrem hscript
  rw [← hconsume] at htake
  rcases hconsumed : assembler.consume token with ⟨next, result⟩
  rw [hconsumed] at htake hsettings
  cases hreading : take options reading token with
  | error error =>
      rw [hreading] at htake hbegun
      obtain rfl := htake
      intro endLine rest
      obtain ⟨more, ends, others, hregions⟩ :=
        regions_inside endLine line name (body ++ [token]) rest
      refine ⟨_, others, ?_, build_error hbegun more ends⟩
      rw [regions, hnext]
      exact hregions
  | ok after =>
      rw [hreading] at htake hbegun
      obtain ⟨rfl, hbuilder, hkept⟩ := htake
      refine ⟨?_, by rw [hnext]; rfl⟩
      rw [hnext]
      exact ⟨hsettings.1.trans hfits.strict, hsettings.2.trans hfits.depth,
        hkept.trans (hfits.remark.trans hremark), after, hbegun, hbuilder⟩

/-- A script that has been opened, before its name. -/
private theorem fits_openScript {options : Options} {assembler : Assembler}
    (hstrict : assembler.strictOperators = options.strictOperators)
    (hdepth : assembler.maxDepth = options.maxDepth) (hremark : assembler.remark = false)
    (line : Nat) : Fits options (.heading line []) (assembler.openScript line) := by
  refine ⟨hstrict, hdepth, hremark, ?_⟩
  rw [openScript, hdepth]
  exact congrArg some (pushName_empty _).symm

/-- A token outside of scripts. -/
private theorem agree_outside {options : Options} {remark : Bool} {assembler : Assembler}
    (hfits : Fits options (.outside remark) assembler) (token : Token) :
    Agree options (.outside remark) token (assembler.consume token) := by
  have hnone : assembler.builder = none := hfits.builder
  have hremark : assembler.remark = remark := hfits.remark
  have hconsume : assembler.consume token = (assembler.consumeOutside token, .ok none) := by
    rw [consume, hnone]
  rw [hconsume, consumeOutside_eq, hremark]
  refine ⟨?_, ?_⟩
  · rw [Place.next]
    split
    · exact ⟨hfits.strict, hfits.depth, rfl, hnone⟩
    · split
      · cases remark with
        | true => exact ⟨hfits.strict, hfits.depth, rfl, hnone⟩
        | false =>
            exact fits_openScript hfits.strict hfits.depth hremark token.line
      · exact hfits
  · rw [Place.next]
    split
    · rfl
    · split
      · rfl
      · rfl

private theorem nameText_concat (name : List Token) (token : Token) :
    nameText (name ++ [token]) = nameText name ++
      if token.kind = .value ∨ token.kind = .operator then token.text else "" := by
  by_cases hkind : token.kind = .value ∨ token.kind = .operator
  · simp [nameText, hkind]
  · simp [nameText, hkind]

/-- A token of a name goes on with it, or ends it and may be one of the body. -/
private theorem heading_cases (builder : Builder) (line : Nat) (name : List Token)
    (token : Token) :
    (consumeName builder token =
          (builder.pushName
            (if token.kind = .value ∨ token.kind = .operator then token.text else ""), false) ∧
        Place.next (.heading line name) token = (.heading line (name ++ [token]), [])) ∨
      (consumeName builder token = (builder.endName, false) ∧
        Place.next (.heading line name) token = (.inside line name [], [])) ∨
      (consumeName builder token = (builder.endName, true) ∧
        Place.next (.heading line name) token = (.inside line name [token], []) ∧
        token.kind ≠ .value) := by
  have hempty := pushName_empty builder
  cases hkind : token.kind with
  | value | operator => exact .inl (by simp [consumeName, Place.next, hkind])
  | separator | tab | comma => exact .inl (by simp [consumeName, Place.next, hkind, hempty])
  | lineEnd | statementEnd => exact .inr (.inl (by simp [consumeName, Place.next, hkind]))
  | bracketOpen | bracketClose | blockOpen | blockClose =>
      exact .inr (.inr (by simp [consumeName, Place.next, hkind]))

/-- A token of a name, or the one that ends it. -/
private theorem agree_heading {options : Options} {line : Nat} {name : List Token}
    {assembler : Assembler} (hfits : Fits options (.heading line name) assembler)
    (token : Token) : Agree options (.heading line name) token (assembler.consume token) := by
  have hremark : assembler.remark = false := hfits.remark
  have hconsume := consume_name hfits.builder rfl token
  have hnamed : ([] : List Token).foldlM (take options) (named options line name) =
      .ok (named options line name) := rfl
  rcases heading_cases ((Builder.start line options.maxDepth).pushName (nameText name)) line name
    token with ⟨hname, hnext⟩ | ⟨hname, hnext⟩ | ⟨hname, hnext, hkind⟩
  · rw [pushName_pushName, ← nameText_concat] at hname
    rw [hconsume, hname, Agree, hnext]
    exact ⟨⟨hfits.strict, hfits.depth, hremark, rfl⟩, rfl⟩
  · rw [hconsume, hname, Agree, hnext]
    exact ⟨⟨hfits.strict, hfits.depth, hremark, _, hnamed, rfl⟩, rfl⟩
  · rw [hname] at hconsume
    refine agree_take hfits rfl hnext hnamed ?_ ?_ hconsume
    · exact fun hrem => hkind (congrArg Lexeme.kind hrem)
    · exact fun hscript => hkind (congrArg Lexeme.kind hscript)

/-- A token that ends a script. -/
private theorem agree_ending {options : Options} {place after : Place} {next : Assembler}
    {line : Nat} {name body : List Token} {reading : Builder} {token : Token}
    (hbody : body.foldlM (take options) (named options line name) = .ok reading)
    (hnext : place.next token = (after, [⟨line, name, body, token.line⟩]))
    (hfits : Fits options after next) :
    Agree options place token (next, (reading.finish token.line).map some) := by
  have hbuild := build_of_body hbody token.line
  cases hfinish : reading.finish token.line with
  | error error =>
      intro endLine rest
      refine ⟨_, regions endLine after rest, ?_, hbuild.trans hfinish⟩
      rw [regions, hnext]
      rfl
  | ok script =>
      refine ⟨?_, ?_⟩
      · rw [hnext]
        exact hfits
      · simp [hnext, hbuild, hfinish]

/-- A token behind a name. -/
private theorem agree_inside {options : Options} {line : Nat} {name body : List Token}
    {assembler : Assembler} (hfits : Fits options (.inside line name body) assembler)
    (token : Token) : Agree options (.inside line name body) token (assembler.consume token) := by
  obtain ⟨reading, hbody, hbuilder⟩ := hfits.builder
  have hname : reading.readingName = false := (continues_named hbody).readingName
  have hconsume := consume_body hbuilder hname token
  by_cases hrem : token.lexeme = ⟨.value, "REM"⟩
  · have hnext : Place.next (.inside line name body) token =
        (.outside true, [⟨line, name, body, token.line⟩]) := by
      rw [Place.next, if_pos hrem]
    rw [hconsume, consumeBody, Action.ofToken_remark hrem]
    exact agree_ending hbody hnext ⟨hfits.strict, hfits.depth, rfl, rfl⟩
  · by_cases hscript : token.lexeme = ⟨.value, "SCRIPT"⟩
    · have hnext : Place.next (.inside line name body) token =
          (.heading token.line [], [⟨line, name, body, token.line⟩]) := by
        rw [Place.next, if_neg hrem, if_pos hscript]
      rw [hconsume, consumeBody, Action.ofToken_nextScript hscript]
      exact agree_ending hbody hnext
        (fits_openScript hfits.strict hfits.depth hfits.remark token.line)
    · refine agree_take hfits rfl ?_ hbody hrem hscript hconsume
      rw [Place.next, if_neg hrem, if_neg hscript]

/-- One token. -/
theorem agree_consume {options : Options} {place : Place} {assembler : Assembler}
    (hfits : Fits options place assembler) (token : Token) :
    Agree options place token (assembler.consume token) := by
  cases place with
  | outside remark => exact agree_outside hfits token
  | heading line name => exact agree_heading hfits token
  | inside line name body => exact agree_inside hfits token

/-- All tokens. -/
theorem results_of_fits {options : Options} {place : Place} {assembler : Assembler}
    (hfits : Fits options place assembler) (endLine : Nat) (tokens : List Token) :
    assembler.results endLine tokens =
      cutAfterError ((regions endLine place tokens).map (build options)) := by
  induction tokens generalizing place assembler with
  | nil =>
      have hbuilder := hfits.builder
      cases place with
      | outside remark =>
          have hnone : assembler.builder = none := hbuilder
          rw [results, hnone]
          rfl
      | heading line name =>
          have hsome : assembler.builder =
            some ((Builder.start line options.maxDepth).pushName (nameText name)) := hbuilder
          rw [results, hsome]
          rfl
      | inside line name body =>
          obtain ⟨reading, hbody, hsome⟩ := hbuilder
          have hbuild := build_of_body hbody endLine
          simp only [results, hsome, regions, Place.close, List.map_cons, List.map_nil, hbuild]
          cases hfinish : reading.finish endLine with
          | error error => simp [hfinish, cutAfterError]
          | ok script => simp [hfinish, cutAfterError]
  | cons token tokens ih =>
      have hagree := agree_consume hfits token
      rw [results]
      rcases hconsume : assembler.consume token with ⟨next, error | ended⟩
      · rw [hconsume] at hagree
        obtain ⟨region, others, hregions, hbuild⟩ := hagree endLine tokens
        rw [hregions, List.map_cons, hbuild]
        rfl
      · rw [hconsume] at hagree
        obtain ⟨hnext, hclosed⟩ := hagree
        rw [regions, List.map_append, hclosed]
        cases ended with
        | none => exact ih hnext
        | some script => exact congrArg (_ :: ·) (ih hnext)

end Region

namespace Assembler

/-! ## Remarks -/

/-- Whether no remark is open in a script. -/
def Quiet (assembler : Assembler) : Prop :=
  assembler.builder.isSome → assembler.remark = false

private theorem quiet_none {assembler : Assembler} (hnone : assembler.builder = none) :
    assembler.Quiet := by
  intro hsome
  rw [hnone] at hsome
  cases hsome

private theorem quiet_consumeBody {assembler : Assembler} (hnone : assembler.builder = none)
    (hremark : assembler.remark = false) (builder : Builder) (token : Token) :
    (assembler.consumeBody builder token).1.Quiet := by
  unfold consumeBody
  split
  · exact fun _ => hremark
  · unfold build
    split
    · exact quiet_none hnone
    next checked hchecked =>
      rw [checkOperator_eq hchecked]
      split
      · exact quiet_none hnone
      · exact fun _ => hremark
  · exact quiet_none hnone
  · exact fun _ => hremark

private theorem quiet_consume {assembler : Assembler} (hquiet : assembler.Quiet) (token : Token) :
    (assembler.consume token).1.Quiet := by
  cases hbuilder : assembler.builder with
  | none =>
      rw [consume, hbuilder]
      simp only [consumeOutside_eq]
      split
      · exact quiet_none hbuilder
      · split
        · split
          · exact quiet_none hbuilder
          next hremark => exact fun _ => by simpa [openScript] using hremark
        · exact hquiet
  | some builder =>
      have hremark : assembler.remark = false := hquiet (by rw [hbuilder]; rfl)
      cases hname : builder.readingName with
      | true =>
          rw [consume_name hbuilder hname]
          split
          · exact fun _ => hremark
          · refine quiet_consumeBody ?_ ?_ _ token
            · rfl
            · exact hremark
      | false =>
          rw [consume_body hbuilder hname]
          refine quiet_consumeBody ?_ ?_ _ token
          · rfl
          · exact hremark

end Assembler

namespace Parser

open Region

/-- A parser hands out what its regions give on their own, up to the first error, and
no remark is open in a script. -/
theorem results_eq_regions (lines : List String) (options : Options) :
    (ofLines lines options).results =
        cutAfterError
          ((regions (lineAfter options.lineOffset lines.length) (.outside false)
            (TokenStream.ofLines lines options.lineOffset).toList).map (Region.build options)) ∧
      ∀ parser, Reachable lines options parser → parser.assembler.builder.isSome →
        parser.assembler.remark = false := by
  constructor
  · rw [results_ofLines]
    have hfits : Fits options (.outside false) (.ofOptions options) := ⟨rfl, rfl, rfl, rfl⟩
    exact results_of_fits hfits _ _
  · intro parser hreach
    have hstart : (Assembler.ofOptions options).Quiet := Assembler.quiet_none rfl
    exact hreach.holds hstart (fun _ token hquiet => Assembler.quiet_consume hquiet token)
      fun _ hquiet => hquiet

/-- The first `SCRIPT` and the one behind the first script end remarks; while the second
script is being read, none is open. -/
theorem results_eq_regions_remarks :
    let lines := ["REM SCRIPT", "SCRIPT A", "X;REM", "SCRIPT", "SCRIPT B", "Y;"]
    let first : Region := ⟨2, [⟨.separator, " ", 2⟩, ⟨.value, "A", 2⟩],
      [⟨.value, "X", 3⟩, ⟨.statementEnd, ";", 3⟩], 3⟩
    let second : Region := ⟨5, [⟨.separator, " ", 5⟩, ⟨.value, "B", 5⟩],
      [⟨.value, "Y", 6⟩, ⟨.statementEnd, ";", 6⟩, ⟨.lineEnd, "\n", 6⟩], 6⟩
    (ofLines lines {}).results = cutAfterError [first.build {}, second.build {}] ∧
      (ofLines lines {}).next.2.next.2.assembler.builder.isSome ∧
        (ofLines lines {}).next.2.next.2.assembler.remark = false := by
  intro lines first second
  have hregions : regions 6 (.outside false) (TokenStream.ofLines lines 0).toList =
      [first, second] := by
    decide +kernel
  have hsome : (ofLines lines {}).next.2.next.2.assembler.builder.isSome := by
    decide +kernel
  obtain ⟨hresults, hquiet⟩ := results_eq_regions lines {}
  refine ⟨?_, hsome, hquiet _ (.next (.next .start)) hsome⟩
  rw [hresults, show lineAfter ({} : Options).lineOffset lines.length = 6 from rfl,
    show ({} : Options).lineOffset = 0 from rfl, hregions]
  rfl

end Parser

end SignalScript
