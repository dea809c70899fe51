import SignalScript.Proofs.Parser.Calls
import SignalScript.Proofs.Parser.Laziness
import SignalScript.Proofs.Parser.Scripts
import SignalScript.Proofs.Parser.Warnings

/-!
# Findings and unknown operators

What a lenient parser notes, whenever it is taken away, can be read off the scripts that it
hands out: it is one warning for each of their unknown operators, in their order.
-/

namespace SignalScript

namespace Parser

variable {lines : List String} {offset : Nat} {parser : Parser} {scripts : List Script}
  {taken : List Diagnostic}

/-- The leaves of the script being read, until it is handed out. -/
def leaves (parser : Parser) : List (NodeKind × Nat) :=
  if parser.finished then [] else parser.assembler.leaves

/-- Whether the findings of a parser, behind those taken away, are the warnings about the
leaves of the scripts handed out and of the one being read. -/
structure Tallies (lines : List String) (offset : Nat) (scripts : List Script)
    (taken : List Diagnostic) (parser : Parser) : Prop where
  lenient : parser.assembler.strictOperators = false
  reads : parser.ReadsOn lines offset
  sound : ∀ token ∈ parser.stream.toList, token.lexeme.Sound
  findings : taken ++ parser.diagnostics =
    (scripts.flatMap Script.leaves ++ parser.leaves).filterMap leafWarning?
  spelled : LeavesSpelled (scripts.flatMap Script.leaves ++ parser.leaves)
  /-- The lines of the leaves go down if the count of the lines does not start over. -/
  leaves : offset + lines.length < Json.natBound →
    LeavesDownTo parser.lineNumber (scripts.flatMap Script.leaves ++ parser.leaves)

namespace Tallies

theorem start (options : Options)
    (hsound : ∀ token ∈ TokenStream.tokensOfLines options.lineOffset false lines,
      token.lexeme.Sound) :
    Tallies lines options.lineOffset [] []
      (ofLines lines { options with strictOperators := false }) where
  lenient := rfl
  reads := ⟨0, TokenStream.hasRead_ofLines lines options.lineOffset⟩
  sound := hsound
  findings := rfl
  spelled := nofun
  leaves _ := ⟨.nil, nofun⟩

/-- The line that a parser has read to only goes down. -/
theorem lineNumber_le (htallies : parser.Tallies lines offset scripts taken)
    (hbound : offset + lines.length < Json.natBound) {token? : Option Token}
    {stream : TokenStream} (hpulled : parser.stream.next = (token?, stream)) :
    parser.lineNumber ≤ stream.lineNumber := by
  obtain ⟨read, hread⟩ := htallies.reads
  have hle := (hread.bounded hbound).lineNumber_le_next
  rw [hpulled] at hle
  exact hle

/-- One token that is not refused. -/
theorem token (htallies : parser.Tallies lines offset scripts taken)
    (hopen : ¬ parser.finished = true) {token : Token} {stream : TokenStream}
    (hpulled : parser.stream.next = (some token, stream)) {assembler : Assembler}
    {ended : Option Script} (hconsumed : parser.assembler.consume token = (assembler, .ok ended)) :
    ({ parser with stream, assembler } : Parser).Tallies lines offset
        (scripts ++ ended.toList) taken ∧
      (ended.isSome = true → ({ parser with stream, assembler } : Parser).leaves = []) := by
  obtain ⟨leaf?, hreads⟩ := Assembler.exists_reads htallies.lenient hconsumed
  have htokens := TokenStream.toList_of_next_some hpulled
  have hbefore : parser.leaves = parser.assembler.leaves := if_neg hopen
  have hafter : ({ parser with stream, assembler } : Parser).leaves = assembler.leaves :=
    if_neg hopen
  have hleaves : (scripts ++ ended.toList).flatMap Script.leaves ++ assembler.leaves =
      (scripts.flatMap Script.leaves ++ parser.leaves) ++ leaf?.toList :=
    calc (scripts ++ ended.toList).flatMap Script.leaves ++ assembler.leaves
      _ = scripts.flatMap Script.leaves ++
            (ended.toList.flatMap Script.leaves ++ assembler.leaves) := by
          rw [List.flatMap_append, List.append_assoc]
      _ = scripts.flatMap Script.leaves ++ (parser.leaves ++ leaf?.toList) := by
          rw [hreads.leaves, hbefore]
      _ = (scripts.flatMap Script.leaves ++ parser.leaves) ++ leaf?.toList :=
          (List.append_assoc ..).symm
  refine ⟨?tallies, fun hended => hafter.trans (hreads.ended hended)⟩
  constructor
  case lenient =>
    have hsettings := (Assembler.settings_consume parser.assembler token).1
    rw [hconsumed] at hsettings
    exact hsettings.trans htallies.lenient
  case reads => exact htallies.reads.token hpulled assembler
  case sound =>
    intro other hother
    apply htallies.sound
    rw [htokens]
    exact .tail _ hother
  case findings =>
    rw [hafter, hleaves]
    calc taken ++ assembler.diagnostics
      _ = (taken ++ parser.diagnostics) ++ leaf?.toList.filterMap leafWarning? := by
          rw [hreads.diagnostics, List.append_assoc]
          rfl
      _ = ((scripts.flatMap Script.leaves ++ parser.leaves) ++ leaf?.toList).filterMap
            leafWarning? := by
          rw [htallies.findings]
          exact List.filterMap_append.symm
  case spelled =>
    rw [hafter, hleaves]
    cases leaf? with
    | none => simpa using htallies.spelled
    | some leaf =>
        rcases leaf with ⟨kind, line⟩
        apply htallies.spelled.concat
        rintro text rfl
        rcases hreads.spelled text _ rfl with hword | hsymbol
        · exact List.mem_append_left _ hword
        · have hsound := htallies.sound token (htokens ▸ .head _)
          rw [hsymbol] at hsound
          exact List.mem_append_right _ hsound
  case leaves =>
    -- The token stands on the last line read, so its leaf comes below all others.
    intro hbound
    obtain ⟨read, hread⟩ := htallies.reads
    have hline : stream.lineNumber = token.line := (hread.next_some hpulled).lineNumber_eq
    have hdown := (htallies.leaves hbound).mono (htallies.lineNumber_le hbound hpulled)
    rw [hafter, hleaves]
    cases leaf? with
    | none => rwa [Option.toList_none, List.append_nil]
    | some leaf =>
        rcases leaf with ⟨kind, line⟩
        obtain rfl : line = stream.lineNumber := (hreads.line _ rfl).trans hline.symm
        exact hdown.concat kind

/-- The end, where the script being read is handed out. -/
theorem ended (htallies : parser.Tallies lines offset scripts taken)
    (hopen : ¬ parser.finished = true) {stream : TokenStream}
    (hpulled : parser.stream.next = (none, stream)) {last : List Script}
    (hlast : last.flatMap Script.leaves = parser.assembler.leaves) :
    ({ parser with stream, finished := true } : Parser).Tallies lines offset
      (scripts ++ last) taken := by
  have hbefore : parser.leaves = parser.assembler.leaves := if_neg hopen
  have hafter : ({ parser with stream, finished := true } : Parser).leaves = [] := if_pos rfl
  have hleaves : (scripts ++ last).flatMap Script.leaves ++ [] =
      scripts.flatMap Script.leaves ++ parser.leaves := by
    rw [List.append_nil, List.flatMap_append, hlast, hbefore]
  constructor
  case lenient => exact htallies.lenient
  case reads =>
    obtain ⟨read, hread⟩ := htallies.reads
    exact ⟨lines.length, (hread.next_none hpulled).1⟩
  case sound =>
    have hnothing : stream.toList = [] := TokenStream.toList_of_next_none hpulled
    rw [hnothing]
    exact nofun
  case findings =>
    rw [hafter, hleaves]
    exact htallies.findings
  case spelled =>
    rw [hafter, hleaves]
    exact htallies.spelled
  case leaves =>
    intro hbound
    rw [hafter, hleaves]
    exact (htallies.leaves hbound).mono (htallies.lineNumber_le hbound hpulled)

/-- One call for a result that is not an error. -/
theorem next (htallies : parser.Tallies lines offset scripts taken)
    (hnext : (Answer.result parser.next.1).error? = none) :
    parser.next.2.Tallies lines offset
        (scripts ++ (Answer.result parser.next.1).script?.toList) taken ∧
      parser.next.2.leaves = [] := by
  fun_induction Parser.next parser with
  | case1 parser finished =>
    refine ⟨?_, if_pos finished⟩
    simpa [Answer.script?] using htallies
  | case2 parser finished stream pulled ended =>
    refine ⟨htallies.ended finished pulled ?_, if_pos rfl⟩
    have hend : ended.atEnd = parser.assembler.builder.map (·.finish ended.lineNumber) := rfl
    cases hbuilder : parser.assembler.builder with
    | none =>
        rw [hend, hbuilder, Assembler.leaves_of_none hbuilder]
        rfl
    | some builder =>
        rw [hend, hbuilder] at hnext ⊢
        rw [Assembler.leaves_of_some hbuilder]
        cases hfinish : builder.finish ended.lineNumber with
        | error error => simp [hfinish, Answer.error?] at hnext
        | ok script =>
            obtain rfl := Builder.script_of_finish hfinish
            rw [Option.map_some, hfinish]
            exact List.append_nil _
  | case3 parser finished token stream pulled assembler consumed ih =>
    have hnothing := (htallies.token finished pulled consumed).1
    rw [Option.toList_none, List.append_nil] at hnothing
    exact ih hnothing hnext
  | case4 parser finished token stream pulled assembler script consumed =>
    obtain ⟨hscript, hempty⟩ := htallies.token finished pulled consumed
    exact ⟨hscript, hempty rfl⟩
  | case5 parser finished token stream pulled assembler error consumed => cases hnext

/-- Taking the findings away only moves them. -/
theorem clearDiagnostics (htallies : parser.Tallies lines offset scripts taken) :
    parser.clearDiagnostics.Tallies lines offset scripts (taken ++ parser.diagnostics) where
  lenient := htallies.lenient
  reads := htallies.reads
  sound := htallies.sound
  findings := (List.append_nil _).trans htallies.findings
  spelled := htallies.spelled
  leaves := htallies.leaves

/-- One call that is not answered by an error. -/
theorem call (htallies : parser.Tallies lines offset scripts taken) (hleaves : parser.leaves = [])
    {call : Call} (hcall : (parser.call call).1.error? = none) :
    (parser.call call).2.Tallies lines offset (scripts ++ (parser.call call).1.script?.toList)
        (taken ++ (parser.call call).1.taken) ∧
      (parser.call call).2.leaves = [] := by
  cases call with
  | next =>
      obtain ⟨hnext, hempty⟩ := htallies.next hcall
      refine ⟨?_, hempty⟩
      rwa [show (parser.call .next).1.taken = [] from rfl, List.append_nil]
  | takeDiagnostics =>
      refine ⟨?_, hleaves⟩
      rw [show (parser.call .takeDiagnostics).1.script?.toList = [] from rfl, List.append_nil]
      exact htallies.clearDiagnostics

/-- Calls none of which is answered by an error. -/
theorem run (htallies : parser.Tallies lines offset scripts taken) (hleaves : parser.leaves = [])
    {calls : List Call} (hcalls : (parser.run calls).1.filterMap Answer.error? = []) :
    (parser.run calls).2.Tallies lines offset
        (scripts ++ (parser.run calls).1.filterMap Answer.script?)
        (taken ++ (parser.run calls).1.flatMap Answer.taken) ∧
      (parser.run calls).2.leaves = [] := by
  induction calls generalizing parser scripts taken with
  | nil =>
      simp only [run_nil, List.filterMap_nil, List.flatMap_nil, List.append_nil]
      exact ⟨htallies, hleaves⟩
  | cons call calls ih =>
      rw [run_cons] at hcalls ⊢
      rw [List.filterMap_cons] at hcalls
      cases herror : (parser.call call).1.error? with
      | some error => simp [herror] at hcalls
      | none =>
          rw [herror] at hcalls
          obtain ⟨hcall, hempty⟩ := htallies.call hleaves herror
          obtain ⟨hrun, hend⟩ := ih hcall hempty hcalls
          refine ⟨?_, hend⟩
          have hscripts : ((parser.call call).1 :: ((parser.call call).2.run calls).1).filterMap
              Answer.script? = (parser.call call).1.script?.toList ++
                ((parser.call call).2.run calls).1.filterMap Answer.script? := by
            rw [List.filterMap_cons]
            cases (parser.call call).1.script? <;> rfl
          rw [hscripts, List.flatMap_cons, ← List.append_assoc, ← List.append_assoc]
          exact hrun

end Tallies

end Parser

end SignalScript
