import SignalScript.Proofs.Parser.Body
import SignalScript.Proofs.Parser.Invariant

/-!
# Scripts that follow one another

With the default settings the tokens of a script, its header and its body, are read
in the same way wherever a script can begin: at the beginning of a text and behind a
script that could end there.
-/

namespace SignalScript

namespace Assembler

private theorem settings_consumeBody (assembler : Assembler) (builder : Builder) (token : Token) :
    (assembler.consumeBody builder token).1.strictOperators = assembler.strictOperators ∧
      (assembler.consumeBody builder token).1.maxDepth = assembler.maxDepth := by
  rw [consumeBody]
  split
  · exact ⟨rfl, rfl⟩
  · rw [build]
    split
    · exact ⟨rfl, rfl⟩
    next checked hchecked =>
      have hsettings : checked.strictOperators = assembler.strictOperators ∧
          checked.maxDepth = assembler.maxDepth := by
        rw [checkOperator_eq hchecked]
        exact ⟨rfl, rfl⟩
      split
      · exact hsettings
      · exact hsettings
  · exact ⟨rfl, rfl⟩
  · exact ⟨rfl, rfl⟩

/-- A token does not change the settings. -/
theorem settings_consume (assembler : Assembler) (token : Token) :
    (assembler.consume token).1.strictOperators = assembler.strictOperators ∧
      (assembler.consume token).1.maxDepth = assembler.maxDepth := by
  rw [consume]
  split
  · rw [consumeOutside]
    split
    · split
      · exact ⟨rfl, rfl⟩
      · split
        · exact ⟨rfl, rfl⟩
        · exact ⟨rfl, rfl⟩
      · exact ⟨rfl, rfl⟩
    · exact ⟨rfl, rfl⟩
  next builder hbuilder =>
    dsimp only
    split
    · split
      · exact ⟨rfl, rfl⟩
      · exact settings_consumeBody _ _ token
    · exact settings_consumeBody _ _ token

private theorem finish_of_consumeBody {assembler : Assembler} {builder : Builder} {token : Token}
    {script : Script} (hended : (assembler.consumeBody builder token).2 = .ok (some script)) :
    token.endsScript = true ∧ builder.finish token.line = .ok script := by
  have hfinish : (builder.finish token.line).map some = .ok (some script) →
      builder.finish token.line = .ok script := by
    intro hmap
    cases hresult : builder.finish token.line with
    | error error => simp [hresult, Except.map] at hmap
    | ok finished =>
        rw [hresult] at hmap
        rw [Option.some.inj (Except.ok.inj hmap)]
  rw [consumeBody] at hended
  cases hends : token.endsScript with
  | false =>
      rcases Action.ofToken_inner hends with haction | ⟨step, haction⟩
      · simp [haction] at hended
      · simp only [haction, build] at hended
        split at hended
        · cases hended
        · split at hended
          · cases hended
          · cases hended
  | true =>
      refine ⟨rfl, hfinish ?_⟩
      rcases Token.endsScript_iff.mp hends with hrem | hscript
      · rwa [Action.ofToken_remark hrem] at hended
      · rwa [Action.ofToken_nextScript hscript] at hended

/-- A script is handed out only by a `REM` or `SCRIPT`, which finishes it. -/
theorem finish_of_consume {assembler : Assembler} {token : Token} {script : Script}
    (hended : (assembler.consume token).2 = .ok (some script)) :
    ∃ builder, assembler.builder = some builder ∧ token.endsScript = true ∧
      builder.finish token.line = .ok script := by
  cases hbuilder : assembler.builder with
  | none => simp [consume, hbuilder] at hended
  | some builder =>
      refine ⟨builder, rfl, ?_⟩
      cases hname : builder.readingName with
      | false =>
          rw [consume_body hbuilder hname] at hended
          exact finish_of_consumeBody hended
      | true =>
          rw [consume_name hbuilder hname] at hended
          split at hended
          · cases hended
          next next hnext =>
            -- A value is part of the name, and does not end it.
            have hkind : token.kind = .value :=
              Token.kind_of_endsScript (finish_of_consumeBody hended).1
            simp [consumeName, hkind] at hnext

/-- Whether an assembler has the default settings and stands at a builder. -/
structure At (assembler : Assembler) (builder : Builder) : Prop where
  strict : assembler.strictOperators = false
  unlimited : assembler.maxDepth = none
  builder : assembler.builder = some builder

/-- Whether an assembler with the default settings stands where a script can begin,
behind a script or behind none. -/
structure Between (assembler : Assembler) (ended : Option Script) : Prop where
  strict : assembler.strictOperators = false
  unlimited : assembler.maxDepth = none
  builder : match ended with
    | none => assembler.builder = none ∧ assembler.remark = false
    | some script => ∃ builder, assembler.builder = some builder ∧
        builder.readingName = false ∧ ∀ line, builder.finish line = .ok script

/-- Whether tokens lead to a builder and give scripts on the way. -/
def Takes (assembler : Assembler) (tokens : List Token) (ended : List Script)
    (builder : Builder) : Prop :=
  ∃ next : Assembler, next.At builder ∧ ∀ (endLine : Nat) (rest : List Token),
    assembler.results endLine (tokens ++ rest) = ended.map .ok ++ next.results endLine rest

theorem takes_nil {assembler : Assembler} {builder : Builder} (hat : assembler.At builder) :
    assembler.Takes [] [] builder :=
  ⟨assembler, hat, fun _ _ => rfl⟩

theorem Takes.append {assembler : Assembler} {left right : List Token}
    {ended others : List Script} {middle builder : Builder}
    (hleft : assembler.Takes left ended middle)
    (hright : ∀ next : Assembler, next.At middle → next.Takes right others builder) :
    assembler.Takes (left ++ right) (ended ++ others) builder := by
  obtain ⟨next, hnext, hresults⟩ := hleft
  obtain ⟨last, hlast, hothers⟩ := hright next hnext
  refine ⟨last, hlast, ?_⟩
  intro endLine rest
  rw [List.append_assoc, hresults, hothers, List.map_append, List.append_assoc]

/-- A token that ends nothing. -/
private theorem takes_single {assembler : Assembler} {builder next : Builder} {token : Token}
    (hat : assembler.At builder)
    (hconsume : (assembler.consume token).2 = .ok none ∧
      (assembler.consume token).1.builder = some next) : assembler.Takes [token] [] next := by
  obtain ⟨hstrict, hunlimited⟩ := settings_consume assembler token
  refine ⟨(assembler.consume token).1,
    ⟨hstrict.trans hat.strict, hunlimited.trans hat.unlimited, hconsume.2⟩, ?_⟩
  intro endLine rest
  exact results_skip (Prod.ext rfl hconsume.1) endLine rest

theorem pushName_empty (builder : Builder) : builder.pushName "" = builder := by
  simp [Builder.pushName]

theorem pushName_pushName (builder : Builder) (left right : String) :
    (builder.pushName left).pushName right = builder.pushName (left ++ right) := by
  simp [Builder.pushName, String.append_assoc]

/-- Values and operators are parts of a name. -/
theorem takes_name {assembler : Assembler} {builder : Builder} (hat : assembler.At builder)
    (hname : builder.readingName = true) {tokens : List Token}
    (hkinds : ∀ token ∈ tokens, token.kind = .value ∨ token.kind = .operator) :
    assembler.Takes tokens [] (builder.pushName (String.join (tokens.map Token.text))) := by
  induction tokens generalizing assembler builder with
  | nil =>
      rw [List.map_nil, String.join_nil, pushName_empty]
      exact takes_nil hat
  | cons token tokens ih =>
      have hpart : consumeName builder token = (builder.pushName token.text, false) := by
        rw [consumeName]
        rcases hkinds token (.head _) with hkind | hkind
        · rw [hkind]
        · rw [hkind]
      have hfirst : assembler.Takes [token] [] (builder.pushName token.text) := by
        apply takes_single hat
        rw [consume, hat.builder]
        simp [hname, hpart]
      rw [List.map_cons, String.join_cons, ← pushName_pushName]
      refine hfirst.append ?_
      intro next hnext
      exact ih hnext hname fun other hother => hkinds other (.tail _ hother)

/-- Behind its name, a script takes the tokens that its position reads. -/
theorem takes_body {assembler : Assembler} {position after : Position} {name : String} {line : Nat}
    (hat : assembler.At (position.builder name line false none)) {tokens : List Token}
    (hends : ∀ token ∈ tokens, token.endsScript = false) (hrun : position.run tokens = .ok after) :
    assembler.Takes tokens [] (after.builder name line false none) := by
  induction tokens generalizing assembler position with
  | nil =>
      obtain rfl := Except.ok.inj hrun
      exact takes_nil hat
  | cons token tokens ih =>
      have htoken := consume_builder hat.strict hat.builder (hends token (.head _))
      obtain ⟨next, hread, hrest⟩ := Position.exists_read_of_run hrun
      rw [hread] at htoken
      refine (takes_single hat ⟨htoken.1, htoken.2.2⟩).append ?_
      intro last hlast
      exact ih hlast (fun other hother => hends other (.tail _ hother)) hrest

/-- A `SCRIPT` hands out the script before it. -/
theorem takes_scriptWord {assembler : Assembler} {ended : Option Script}
    (hbetween : assembler.Between ended) (line : Nat) :
    assembler.Takes [⟨.value, "SCRIPT", line⟩] ended.toList (.start line none) := by
  obtain ⟨hstrict, hunlimited⟩ := settings_consume assembler ⟨.value, "SCRIPT", line⟩
  have hbuilder := hbetween.builder
  cases ended with
  | none =>
      have hconsume : assembler.consume ⟨.value, "SCRIPT", line⟩ =
          (assembler.openScript line, .ok none) := by
        simp [consume, hbuilder.1, consumeOutside, hbuilder.2]
      refine ⟨assembler.openScript line, ⟨hbetween.strict, hbetween.unlimited, ?_⟩, ?_⟩
      · rw [openScript, hbetween.unlimited]
      · intro endLine rest
        exact results_skip hconsume endLine rest
  | some script =>
      obtain ⟨builder, hsome, hname, hfinish⟩ := hbuilder
      have hconsume : assembler.consume ⟨.value, "SCRIPT", line⟩ =
          (({ assembler with builder := none } : Assembler).openScript line,
            .ok (some script)) := by
        simp [consume, hsome, hname, consumeBody, Action.ofToken, Action.ofValue, hfinish,
          Except.map]
      refine ⟨({ assembler with builder := none } : Assembler).openScript line,
        ⟨hbetween.strict, hbetween.unlimited, ?_⟩, ?_⟩
      · rw [openScript, hbetween.unlimited]
      · intro endLine rest
        exact results_script hconsume endLine rest

/-- The tokens of a header up to the end of its name. -/
theorem takes_openHeader {assembler : Assembler} {ended : Option Script}
    (hbetween : assembler.Between ended) (line : Nat) {name : List Lexeme}
    (hkinds : ∀ lexeme ∈ name, lexeme.kind = .value ∨ lexeme.kind = .operator) :
    assembler.Takes
      (TokenStream.locate line (⟨.value, "SCRIPT"⟩ :: ⟨.separator, " "⟩ :: name)) ended.toList
      (({} : Position).builder (String.join (name.map Lexeme.text)) line true none) := by
  have hseparator : ∀ next : Assembler, next.At (.start line none) →
      next.Takes [⟨.separator, " ", line⟩] [] (.start line none) := by
    intro next hnext
    apply takes_single hnext
    rw [consume, hnext.builder]
    exact ⟨rfl, rfl⟩
  have hname : ∀ next : Assembler, next.At (.start line none) →
      next.Takes (TokenStream.locate line name) []
        (({} : Position).builder (String.join (name.map Lexeme.text)) line true none) := by
    intro next hnext
    have hlocated : ∀ token ∈ TokenStream.locate line name,
        token.kind = .value ∨ token.kind = .operator := by
      intro token hmem
      obtain ⟨lexeme, hlexeme, rfl⟩ := List.mem_map.mp hmem
      exact hkinds lexeme hlexeme
    have htakes := takes_name hnext rfl hlocated
    rw [Position.builder_start]
    simpa [TokenStream.locate, Function.comp_def, Lexeme.onLine, Builder.start,
      Builder.pushName, Script.opened] using htakes
  have htakes := ((takes_scriptWord hbetween line).append hseparator).append hname
  simpa [TokenStream.locate, Lexeme.onLine] using htakes

/-- The tokens of a header whose line ends with its name. -/
theorem takes_header {assembler : Assembler} {ended : Option Script}
    (hbetween : assembler.Between ended) (line : Nat) {name : List Lexeme}
    (hkinds : ∀ lexeme ∈ name, lexeme.kind = .value ∨ lexeme.kind = .operator) :
    assembler.Takes
      (TokenStream.locate line
        (⟨.value, "SCRIPT"⟩ :: ⟨.separator, " "⟩ :: (name ++ [.lineEnd]))) ended.toList
      (({} : Position).builder (String.join (name.map Lexeme.text)) line false none) := by
  have hend : ∀ next : Assembler,
      next.At (({} : Position).builder (String.join (name.map Lexeme.text)) line true none) →
        next.Takes [Lexeme.lineEnd.onLine line] []
          (({} : Position).builder (String.join (name.map Lexeme.text)) line false none) := by
    intro next hnext
    apply takes_single hnext
    rw [consume, hnext.builder]
    exact ⟨rfl, rfl⟩
  have htakes := (takes_openHeader hbetween line hkinds).append hend
  simpa [TokenStream.locate] using htakes

theorem Between.results_nil {assembler : Assembler} {ended : Option Script}
    (hbetween : assembler.Between ended) (endLine : Nat) :
    assembler.results endLine [] = ended.toList.map .ok := by
  have hbuilder := hbetween.builder
  cases ended with
  | none => simp [results, hbuilder.1]
  | some script =>
      obtain ⟨builder, hsome, _, hfinish⟩ := hbuilder
      simp [results, hsome, hfinish]

theorem between_ofOptions : (Assembler.ofOptions {}).Between none :=
  ⟨rfl, rfl, rfl, rfl⟩

end Assembler

end SignalScript
