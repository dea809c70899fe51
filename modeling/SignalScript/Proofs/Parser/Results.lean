import SignalScript.Parser

/-!
# The results of a parser

What a parser hands out is a function of the tokens of its lines and of the number
of the last line: it takes the tokens one by one, and hands out what each of them
ends, up to the first error.
-/

namespace SignalScript

namespace Assembler

/-- A token that meets a name. -/
theorem consume_name {assembler : Assembler} {builder : Builder}
    (hbuilder : assembler.builder = some builder) (hname : builder.readingName = true)
    (token : Token) :
    assembler.consume token =
      match consumeName builder token with
      | (next, false) => ({ assembler with builder := some next }, .ok none)
      | (next, true) =>
        ({ assembler with builder := none } : Assembler).consumeBody next token := by
  rw [consume, hbuilder]
  exact if_pos hname

/-- A token that meets a script behind its name. -/
theorem consume_body {assembler : Assembler} {builder : Builder}
    (hbuilder : assembler.builder = some builder) (hname : builder.readingName = false)
    (token : Token) :
    assembler.consume token =
      ({ assembler with builder := none } : Assembler).consumeBody builder token := by
  rw [consume, hbuilder]
  exact if_neg (by rw [hname]; exact Bool.false_ne_true)

/-- The results of tokens taken one by one, when their lines end with `endLine`. -/
def results (assembler : Assembler) (endLine : Nat) :
    List Token → List (Except ParseError Script)
  | [] => (assembler.builder.map (·.finish endLine)).toList
  | token :: rest =>
    match assembler.consume token with
    | (next, .ok none) => next.results endLine rest
    | (next, .ok (some script)) => .ok script :: next.results endLine rest
    | (_, .error error) => [.error error]

theorem results_skip {assembler next : Assembler} {token : Token}
    (hconsume : assembler.consume token = (next, .ok none)) (endLine : Nat) (rest : List Token) :
    assembler.results endLine (token :: rest) = next.results endLine rest := by
  rw [results, hconsume]

theorem results_script {assembler next : Assembler} {token : Token} {script : Script}
    (hconsume : assembler.consume token = (next, .ok (some script))) (endLine : Nat)
    (rest : List Token) :
    assembler.results endLine (token :: rest) = .ok script :: next.results endLine rest := by
  rw [results, hconsume]

theorem results_error {assembler next : Assembler} {token : Token} {error : ParseError}
    (hconsume : assembler.consume token = (next, .error error)) (endLine : Nat)
    (rest : List Token) :
    assembler.results endLine (token :: rest) = [.error error] := by
  rw [results, hconsume]

end Assembler

namespace TokenStream

/-- The number of the last line that there is. -/
def endLine (stream : TokenStream) : Nat :=
  lineAfter stream.lineNumber stream.lines.length

private theorem endLine_readLines (lineNumber : Nat) (inComment : Bool) (lines : List String) :
    (readLines lineNumber inComment lines).2.endLine = lineAfter lineNumber lines.length ∧
      ((readLines lineNumber inComment lines).1 = none →
        (readLines lineNumber inComment lines).2.lines = []) := by
  induction lines generalizing lineNumber inComment with
  | nil => exact ⟨rfl, fun _ => rfl⟩
  | cons line rest ih =>
      simp only [readLines]
      split
      · exact ih (nextLine lineNumber) (Scan.line inComment line).inComment
      · exact ⟨rfl, by simp⟩

/-- Taking a token does not change where the lines end. -/
theorem endLine_next (stream : TokenStream) : stream.next.2.endLine = stream.endLine := by
  rw [next]
  split
  · rfl
  · exact (endLine_readLines _ _ _).1

/-- Without a token left all lines have been read. -/
theorem lineNumber_of_next_none {stream after : TokenStream} (hnext : stream.next = (none, after)) :
    after.lineNumber = stream.endLine := by
  have hend := endLine_next stream
  have hlines : after.lines = [] := by
    rw [next] at hnext
    split at hnext
    · cases hnext
    · have hread := (endLine_readLines stream.lineNumber stream.inComment stream.lines).2
      rw [hnext] at hread
      exact hread rfl
  rw [hnext] at hend
  simpa [endLine, hlines] using hend

theorem toList_of_next_some {stream after : TokenStream} {token : Token}
    (hnext : stream.next = (some token, after)) : stream.toList = token :: after.toList := by
  have hfirst := next_fst stream
  have hrest := toList_next stream
  rw [hnext] at hfirst hrest
  cases htokens : stream.toList with
  | nil => simp [htokens] at hfirst
  | cons first others => simp_all

end TokenStream

theorem ok_of_toOption {E A : Type} {result : Except E A} {value : A}
    (hresult : result.toOption = some value) : result = .ok value := by
  cases result with
  | error error => cases hresult
  | ok found => rw [Option.some.inj hresult]

namespace Parser

/-- After the end nothing comes. -/
theorem next_of_finished {parser : Parser} (hfinished : parser.finished = true) :
    parser.next = (none, parser) := by
  rw [next, if_pos hfinished]

/-- Without a token left the script being read ends. -/
theorem next_of_end {parser : Parser} {stream : TokenStream} (hopen : ¬ parser.finished = true)
    (hpulled : parser.stream.next = (none, stream)) :
    parser.next = (({ parser with stream, finished := true } : Parser).atEnd,
      { parser with stream, finished := true }) := by
  rw [next, if_neg hopen]
  split
  next other hother =>
    rw [hpulled] at hother
    cases hother
    rfl
  next hother =>
    rw [hpulled] at hother
    cases hother

/-- What a token ends is handed out. -/
theorem next_of_token {parser : Parser} {token : Token} {stream : TokenStream}
    (hopen : ¬ parser.finished = true) (hpulled : parser.stream.next = (some token, stream)) :
    parser.next = match parser.assembler.consume token with
      | (assembler, .ok none) => next { parser with stream, assembler }
      | (assembler, .ok (some script)) => (some (.ok script), { parser with stream, assembler })
      | (assembler, .error error) =>
        (some (.error error), { stream, assembler, finished := true }) := by
  rw [next, if_neg hopen]
  split
  next other hother =>
    rw [hpulled] at hother
    cases hother
  next hother =>
    rw [hpulled] at hother
    cases hother
    rfl

/-- The results of the tokens left, if the end has not been reached. -/
def pending (parser : Parser) : List (Except ParseError Script) :=
  if parser.finished then []
  else parser.assembler.results parser.stream.endLine parser.stream.toList

/-- The next result is the first one of the tokens left. -/
theorem pending_next (parser : Parser) :
    parser.pending = match parser.next with
      | (none, _) => []
      | (some result, after) => result :: after.pending := by
  fun_induction next parser with
  | case1 parser finished => simp [pending, finished]
  | case2 parser finished stream pulled ended =>
    have htokens : parser.stream.toList = [] := by
      have hfirst := TokenStream.next_fst parser.stream
      rw [pulled] at hfirst
      exact List.head?_eq_none_iff.mp hfirst.symm
    have hend := TokenStream.lineNumber_of_next_none pulled
    simp only [pending, finished, htokens, Assembler.results, ended, atEnd, lineNumber, ← hend]
    cases parser.assembler.builder with
    | none => rfl
    | some builder => rfl
  | case3 parser finished token stream pulled assembler consumed ih =>
    have hend := TokenStream.endLine_next parser.stream
    rw [pulled] at hend
    rw [← ih, pending, pending, TokenStream.toList_of_next_some pulled,
      Assembler.results_skip consumed, ← hend]
  | case4 parser finished token stream pulled assembler script consumed =>
    have hend := TokenStream.endLine_next parser.stream
    rw [pulled] at hend
    rw [pending, TokenStream.toList_of_next_some pulled, Assembler.results_script consumed, ← hend]
    simp [pending, finished]
  | case5 parser finished token stream pulled assembler error consumed =>
    rw [pending, TokenStream.toList_of_next_some pulled, Assembler.results_error consumed]
    simp [pending, finished]

/-- A parser hands out the results of the tokens left. -/
theorem results_eq_pending (parser : Parser) : parser.results = parser.pending := by
  fun_induction results parser with
  | case1 parser after pulled => rw [pending_next, pulled]
  | case2 parser result after pulled ih => rw [pending_next, pulled, ih]

/-- All scripts are handed out if no result is an error. -/
theorem scripts_ok_iff (parser : Parser) (scripts : List Script) :
    parser.scripts = .ok scripts ↔ parser.results = scripts.map .ok := by
  rw [Parser.scripts]
  induction parser.results generalizing scripts with
  | nil => cases scripts <;> simp [pure, Except.pure]
  | cons result results ih =>
      rw [List.mapM_cons]
      cases result with
      | error error => cases scripts <;> simp [bind, Except.bind]
      | ok script =>
          cases scripts with
          | nil => cases results.mapM id <;> simp [bind, Except.bind, pure, Except.pure]
          | cons first others =>
              rw [List.map_cons, List.cons.injEq, ← ih others]
              cases results.mapM id <;> simp [bind, Except.bind, pure, Except.pure]

/-- What is handed out if no result is an error is a result. -/
theorem exists_mem_results {parser : Parser} {property : Script → Bool}
    (hany : (parser.scripts.toOption.any fun scripts => scripts.any property) = true) :
    ∃ script : Script, .ok script ∈ parser.results ∧ property script = true := by
  obtain ⟨scripts, hscripts, hany⟩ := (Option.any_eq_true _ _).mp hany
  obtain ⟨script, hmem, hproperty⟩ := List.any_eq_true.mp hany
  refine ⟨script, ?_, hproperty⟩
  rw [(scripts_ok_iff _ _).mp (ok_of_toOption hscripts)]
  exact List.mem_map_of_mem hmem

theorem results_ofLines (lines : List String) (options : Options) :
    (ofLines lines options).results =
      (Assembler.ofOptions options).results (lineAfter options.lineOffset lines.length)
        (TokenStream.tokensOfLines options.lineOffset false lines) :=
  results_eq_pending _

end Parser

end SignalScript
