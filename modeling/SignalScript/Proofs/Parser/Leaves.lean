import SignalScript.Proofs.Grammar.Leaves
import SignalScript.Proofs.Parser.Regions
import SignalScript.Proofs.Parser.Scripts

/-!
# No token is lost

A script that a parser hands out accounts for all tokens of its region behind the name:
its leaves are the values and operators there, in their order, and its other nodes are as
many as the tokens that call for them.
-/

namespace SignalScript

/-! ## Scripts that account for tokens -/

/-- Whether the nodes of a script account for tokens. -/
structure Script.AccountsFor (script : Script) (tokens : List Token) : Prop where
  /-- In the order of the table. -/
  leaves : script.leavesAmong (List.range script.nodeCount) = tokens.filterMap Token.leaf?
  /-- In the order of the walk. -/
  visited : script.leavesAmong script.descendants = tokens.filterMap Token.leaf?
  bracketOpen : script.count (fun kind => kind = .enclosure) =
    tokens.countP fun token => token.kind = .bracketOpen
  bracketClose : script.count (fun kind => kind = .enclosure) =
    tokens.countP fun token => token.kind = .bracketClose
  blockOpen : script.count (fun kind => kind = .block) =
    tokens.countP fun token => token.kind = .blockOpen
  blockClose : script.count (fun kind => kind = .block) =
    tokens.countP fun token => token.kind = .blockClose
  ifWord : script.count NodeKind.isConditional =
    tokens.countP fun token => token.lexeme = ⟨.value, "IF"⟩
  elseWord : script.count NodeKind.isCompleteConditional =
    tokens.countP fun token => token.lexeme = ⟨.value, "ELSE"⟩

namespace Script

variable (name : String) (line : Nat) (phrases : List Phrase)

private theorem count_ofPhrases (property : NodeKind → Bool) :
    (ofPhrases name line phrases).count property =
      (Branch.forestLabels (Phrase.branches phrases)).countP fun label => property label.1 := by
  rw [count, ← List.countP_eq_length_filter, ← map_label_descendants name line phrases,
    List.countP_map]
  rfl

private theorem leavesAmong_descendants :
    (ofPhrases name line phrases).leavesAmong (ofPhrases name line phrases).descendants =
      (Branch.forestLabels (Phrase.branches phrases)).filter fun label => label.1.isLeaf := by
  rw [leavesAmong, map_label_descendants]

/-- The root is no leaf. -/
private theorem leavesAmong_range :
    (ofPhrases name line phrases).leavesAmong
        (List.range (ofPhrases name line phrases).nodeCount) =
      (ofPhrases name line phrases).leavesAmong (ofPhrases name line phrases).descendants := by
  rw [range_nodeCount_ofPhrases]
  rfl

theorem accountsFor_ofPhrases {tokens : List Token}
    (haccounts : Accounts (Branch.forestLabels (Phrase.branches phrases)) tokens) :
    (ofPhrases name line phrases).AccountsFor tokens where
  leaves := by rw [leavesAmong_range, leavesAmong_descendants, haccounts.leaves]
  visited := by rw [leavesAmong_descendants, haccounts.leaves]
  bracketOpen := by rw [count_ofPhrases, haccounts.bracketOpen]
  bracketClose := by rw [count_ofPhrases, haccounts.bracketClose]
  blockOpen := by rw [count_ofPhrases, haccounts.blockOpen]
  blockClose := by rw [count_ofPhrases, haccounts.blockClose]
  ifWord := by rw [count_ofPhrases, haccounts.ifWord]
  elseWord := by rw [count_ofPhrases, haccounts.elseWord]

end Script

namespace Region

/-! ## Bodies -/

/-- Whether no token that a place holds behind a name ends a script. -/
def Place.Inner : Place → Prop
  | .outside _ | .heading _ _ => True
  | .inside _ _ body => ∀ token ∈ body, token.endsScript = false

private theorem inner_next {place : Place} (hinner : place.Inner) (token : Token) :
    (place.next token).1.Inner ∧
      ∀ region ∈ (place.next token).2, ∀ other ∈ region.body, other.endsScript = false := by
  cases place with
  | outside remark =>
      rw [Place.next]
      split
      · exact ⟨trivial, List.forall_mem_nil _⟩
      · split
        · cases remark <;> exact ⟨trivial, List.forall_mem_nil _⟩
        · exact ⟨trivial, List.forall_mem_nil _⟩
  | heading line name =>
      rw [Place.next]
      cases hkind : token.kind with
      | value | operator | separator | tab | comma => exact ⟨trivial, List.forall_mem_nil _⟩
      | lineEnd | statementEnd => exact ⟨List.forall_mem_nil _, List.forall_mem_nil _⟩
      | bracketOpen | bracketClose | blockOpen | blockClose =>
          simp [Place.Inner, Token.endsScript, hkind]
  | inside line name body =>
      have hregion : ∀ region ∈ [(⟨line, name, body, token.line⟩ : Region)],
          ∀ other ∈ region.body, other.endsScript = false := by
        intro region hmem
        obtain rfl := List.mem_singleton.mp hmem
        exact hinner
      rw [Place.next]
      split
      · exact ⟨trivial, hregion⟩
      next hrem =>
        split
        · exact ⟨trivial, hregion⟩
        next hscript =>
          refine ⟨?_, List.forall_mem_nil _⟩
          intro other hmem
          rcases List.mem_append.mp hmem with hold | hnew
          · exact hinner other hold
          · obtain rfl := List.mem_singleton.mp hnew
            rw [Bool.eq_false_iff, ne_eq, Token.endsScript_iff]
            exact not_or_intro hrem hscript

/-- No token of a region behind its name ends a script. -/
theorem endsScript_body {endLine : Nat} {place : Place} (hinner : place.Inner)
    {tokens : List Token} : ∀ region ∈ regions endLine place tokens, ∀ token ∈ region.body,
      token.endsScript = false := by
  induction tokens generalizing place with
  | nil =>
      intro region hmem
      cases place with
      | outside remark => cases hmem
      | heading line name =>
          obtain rfl := List.mem_singleton.mp hmem
          exact nofun
      | inside line name body =>
          obtain rfl := List.mem_singleton.mp hmem
          exact hinner
  | cons token tokens ih =>
      obtain ⟨hnext, hclosed⟩ := inner_next hinner token
      intro region hmem
      rw [regions] at hmem
      rcases List.mem_append.mp hmem with hfirst | hrest
      · exact hclosed region hfirst
      · exact ih hnext region hrest

/-! ## Derivations -/

section Take

variable {options : Options} {name : String} {line : Nat} {readingName : Bool}
  {maxDepth : Option Nat}

/-- A token that a builder takes is one that its position reads. -/
private theorem read_of_take {position : Position} {token : Token} {next : Builder}
    (hends : token.endsScript = false)
    (htake : take options (position.builder name line readingName maxDepth) token = .ok next) :
    ∃ after, position.read token = .ok after ∧
      next = after.builder name line readingName maxDepth := by
  have hstep : ∀ {step : Builder.Step},
      (position.builder name line readingName maxDepth).apply step token.line = .ok next →
        ∃ after, position.step step none token.line = .ok after ∧
          next = after.builder name line readingName maxDepth := by
    intro step happly
    obtain ⟨after, hafter, hnext⟩ := Position.exists_step_of_apply _ _ _ _ happly
    exact ⟨after, Position.step_none hafter, hnext⟩
  rw [Position.read]
  rcases Action.ofToken_inner hends with haction | ⟨step, haction⟩
  · rw [take, haction] at htake
    rw [haction]
    exact ⟨position, rfl, (Except.ok.inj htake).symm⟩
  · rw [take, haction] at htake
    rw [haction]
    split at htake
    next text hoperator =>
      obtain rfl := Action.build.inj hoperator
      split at htake
      · cases htake
      · exact hstep htake
    next other _ hother =>
      obtain rfl := Action.build.inj hother
      exact hstep htake
    next hother => exact absurd rfl (hother step)

private theorem run_of_foldlM {position : Position} {body : List Token} {reading : Builder}
    (hends : ∀ token ∈ body, token.endsScript = false)
    (hbody : body.foldlM (take options) (position.builder name line readingName maxDepth) =
      .ok reading) :
    ∃ after, position.run body = .ok after ∧
      reading = after.builder name line readingName maxDepth := by
  induction body generalizing position with
  | nil => exact ⟨position, rfl, (Except.ok.inj hbody).symm⟩
  | cons token body ih =>
      obtain ⟨next, htake, hrest⟩ := exists_take_of_body hbody
      obtain ⟨middle, hread, rfl⟩ := read_of_take (hends token (.head _)) htake
      obtain ⟨after, hrun, hreading⟩ :=
        ih (fun other hother => hends other (.tail _ hother)) hrest
      exact ⟨after, (Position.run_cons hread body).trans hrun, hreading⟩

end Take

/-- The script of a region holds the phrases of a derivation of its body. -/
theorem exists_items {options : Options} {region : Region} {script : Script}
    (hends : ∀ token ∈ region.body, token.endsScript = false)
    (hbuild : region.build options = .ok script) :
    ∃ phrases, Grammar.Items (region.body.filter fun token => !token.isBlank) phrases [] ∧
      script = Script.ofPhrases (nameText region.name) region.line phrases := by
  have hnamed : named options region.line region.name =
      ({} : Position).builder (nameText region.name) region.line false options.maxDepth := by
    simp [named, Builder.start, Builder.pushName, Builder.endName, Script.opened,
      Position.builder_start]
  cases hbody : region.body.foldlM (take options) (named options region.line region.name) with
  | error error => simp [build, hbody, bind, Except.bind] at hbuild
  | ok reading =>
      have hfinish : reading.finish region.endLine = .ok script := by
        rw [build, hbody] at hbuild
        exact hbuild
      rw [hnamed] at hbody
      obtain ⟨after, hrun, rfl⟩ := run_of_foldlM hends hbody
      rw [Position.finish_builder] at hfinish
      obtain ⟨hbetween, haround, hscript⟩ := hfinish
      have hterminal : ∀ token ∈ region.body.filter fun token => !token.isBlank,
          Grammar.Terminal token := by
        intro token htoken
        obtain ⟨hmem, hblank⟩ := List.mem_filter.mp htoken
        exact Grammar.terminal_of_not_blank (by simpa using hblank) (hends token hmem)
      rw [← Position.run_filter] at hrun
      exact ⟨_, Position.items_of_run hterminal hrun hbetween haround, hscript⟩

end Region

/-- What comes up to the first error has its place among all results. -/
theorem getElem?_of_cutAfterError {ε α : Type} {results : List (Except ε α)} {index : Nat}
    {result : Except ε α} (hresult : (cutAfterError results)[index]? = some result) :
    results[index]? = some result := by
  induction results generalizing index with
  | nil => exact hresult
  | cons first rest ih =>
      cases index with
      | zero =>
          cases first with
          | error error => exact hresult
          | ok value => exact hresult
      | succ index =>
          cases first with
          | error error => cases hresult
          | ok value => exact ih hresult

namespace Parser

open Region

/-- Every script that a parser hands out accounts for the tokens of its region behind the
name: no value, operator, bracket, brace, `IF` or `ELSE` is lost, doubled or moved. -/
theorem accountsFor_region {lines : List String} {options : Options} {index : Nat}
    {script : Script} (hscript : (ofLines lines options).results[index]? = some (.ok script)) :
    ∃ region,
      (regions (lineAfter options.lineOffset lines.length) (.outside false)
        (TokenStream.ofLines lines options.lineOffset).toList)[index]? = some region ∧
      region.build options = .ok script ∧ script.AccountsFor region.body := by
  have hfits : Fits options (.outside false) (.ofOptions options) := ⟨rfl, rfl, rfl, rfl⟩
  rw [results_ofLines, results_of_fits hfits] at hscript
  have hbuilt := getElem?_of_cutAfterError hscript
  rw [List.getElem?_map, Option.map_eq_some_iff] at hbuilt
  obtain ⟨region, hregion, hbuild⟩ := hbuilt
  refine ⟨region, hregion, hbuild, ?_⟩
  have hinner : (Place.outside false).Inner := trivial
  have hends := endsScript_body hinner region (List.mem_of_getElem? hregion)
  obtain ⟨phrases, hitems, rfl⟩ := exists_items hends hbuild
  exact Script.accountsFor_ofPhrases _ _ _ hitems.accounts.of_filter

/-- The second script has leaves in its condition and in its alternate, which is a
block, and an empty body. -/
theorem accountsFor_region_second :
    let lines := ["SCRIPT A", "X; SCRIPT B", "IF (NOT Y) ; ELSE \x7bZ = 1;\x7d"]
    ∃ script, (ofLines lines {}).results[1]? = some (.ok script) ∧
      script.leavesAmong script.descendants =
        [(.operator "NOT", 3), (.value "Y", 3), (.value "Z", 3), (.operator "=", 3),
          (.value "1", 3)] ∧
      script.count NodeKind.isCompleteConditional = 1 := by
  intro lines
  have hbody : (regions 3 (.outside false) (TokenStream.ofLines lines 0).toList)[1]?.map
      (fun region => (region.body.filterMap Token.leaf?,
        region.body.countP fun token => token.lexeme = ⟨.value, "ELSE"⟩)) =
      some ([(.operator "NOT", 3), (.value "Y", 3), (.value "Z", 3), (.operator "=", 3),
        (.value "1", 3)], 1) := by
    decide +kernel
  have hparsed : ((ofLines lines {}).results[1]?.bind Except.toOption).isSome := by
    decide +kernel
  obtain ⟨script, hscript⟩ := Option.isSome_iff_exists.mp hparsed
  obtain ⟨result, hresult, hok⟩ := Option.bind_eq_some_iff.mp hscript
  rw [ok_of_toOption hok] at hresult
  obtain ⟨region, hregion, -, haccounts⟩ := accountsFor_region hresult
  have hsame : (regions 3 (.outside false) (TokenStream.ofLines lines 0).toList)[1]? =
      some region := hregion
  rw [hsame] at hbody
  obtain ⟨hleaves, hwords⟩ := Prod.mk.inj (Option.some.inj hbody)
  exact ⟨script, hresult, haccounts.visited.trans hleaves, haccounts.elseWord.trans hwords⟩

end Parser

end SignalScript
