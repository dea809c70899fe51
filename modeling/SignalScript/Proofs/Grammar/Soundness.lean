import SignalScript.Proofs.Grammar.Completeness

/-!
# What is read is derivable

Where tokens can be read to the end of a script, they begin with something that
the grammar has a name for.  The proof goes down the grammar like a parser without
a table would, and shows that the reading goes on behind what it finds.  It always
takes as much as it can: what follows a phrase begins with an `ELSE` only if all
`IF`s of the phrase have theirs.
-/

namespace SignalScript

/-- Whether a token ends a script when it is read behind the name. -/
def Token.endsScript (token : Token) : Bool :=
  token.kind = .value && (token.text = "REM" || token.text = "SCRIPT")

theorem Token.endsScript_iff {token : Token} :
    token.endsScript = true ↔
      token.lexeme = ⟨.value, "REM"⟩ ∨ token.lexeme = ⟨.value, "SCRIPT"⟩ := by
  simp [Token.endsScript, Token.lexeme, and_or_left]

theorem Token.kind_of_endsScript {token : Token} (hends : token.endsScript = true) :
    token.kind = .value := by
  rcases Token.endsScript_iff.mp hends with hrem | hscript
  · exact congrArg Lexeme.kind hrem
  · exact congrArg Lexeme.kind hscript

namespace Grammar

/-- The tokens of the grammar. -/
inductive Terminal : Token → Prop
  | begins {token : Token} (hbegins : Begins token) : Terminal token
  | ifWord (line : Nat) : Terminal ⟨.value, "IF", line⟩
  | elseWord (line : Nat) : Terminal ⟨.value, "ELSE", line⟩
  | statementEnd (text : String) (line : Nat) : Terminal ⟨.statementEnd, text, line⟩
  | bracketClose (text : String) (line : Nat) : Terminal ⟨.bracketClose, text, line⟩
  | blockOpen (text : String) (line : Nat) : Terminal ⟨.blockOpen, text, line⟩
  | blockClose (text : String) (line : Nat) : Terminal ⟨.blockClose, text, line⟩

theorem terminal_of_not_blank {token : Token} (hblank : token.isBlank = false)
    (hends : token.endsScript = false) : Terminal token := by
  rcases token with ⟨kind, text, line⟩
  cases kind with
  | value =>
      by_cases hoperator : text ∈ operatorWords
      · exact .begins (.leaf (.word text line hoperator))
      · by_cases hkeyword : text ∈ keywords
        · simp only [keywords, List.mem_cons, List.not_mem_nil, or_false] at hkeyword
          rcases hkeyword with rfl | rfl | rfl | rfl
          · exact .ifWord line
          · exact .elseWord line
          · simp [Token.endsScript] at hends
          · simp [Token.endsScript] at hends
        · exact .begins (.leaf (.value text line hkeyword hoperator))
  | operator => exact .begins (.leaf (.operator text line))
  | tab => simp [Token.isBlank] at hblank
  | lineEnd => simp [Token.isBlank] at hblank
  | separator => simp [Token.isBlank] at hblank
  | bracketOpen => exact .begins (.bracketOpen text line)
  | bracketClose => exact .bracketClose text line
  | comma => simp [Token.isBlank] at hblank
  | statementEnd => exact .statementEnd text line
  | blockOpen => exact .blockOpen text line
  | blockClose => exact .blockClose text line

/-- No token of the grammar ends a script. -/
theorem Terminal.endsScript {token : Token} (hterminal : Terminal token) :
    token.endsScript = false := by
  cases hterminal with
  | begins hbegins =>
      cases hbegins with
      | leaf leaf =>
          cases leaf with
          | value text line hkeyword hoperator =>
              simp only [keywords, List.mem_cons, List.not_mem_nil, or_false, not_or] at hkeyword
              simp [Token.endsScript, hkeyword]
          | word text line hoperator =>
              simp only [operatorWords, List.mem_cons, List.not_mem_nil, or_false] at hoperator
              rcases hoperator with rfl | rfl | rfl | rfl | rfl | rfl <;> rfl
          | operator text line => rfl
      | bracketOpen text line => rfl
  | ifWord line => rfl
  | elseWord line => rfl
  | statementEnd text line => rfl
  | bracketClose text line => rfl
  | blockOpen text line => rfl
  | blockClose text line => rfl

/-- Whether all tokens of a list are tokens of the grammar. -/
def Terminals (tokens : List Token) : Prop :=
  ∀ token ∈ tokens, Terminal token

private theorem Terminals.cons {token : Token} {tokens : List Token} (hfirst : Terminal token)
    (hothers : Terminals tokens) : Terminals (token :: tokens) := by
  intro other hmem
  rcases List.mem_cons.mp hmem with rfl | hmem
  · exact hfirst
  · exact hothers other hmem

private theorem terminals_exprs {tokens rest : List Token} {exprs : List Expr}
    (hexprs : Exprs tokens exprs rest) (hrest : Terminals rest) : Terminals tokens := by
  induction hexprs with
  | nil rest => exact hrest
  | leaf first others ih => exact (ih hrest).cons (.begins (.leaf first))
  | enclosure inside others ihInside ihOthers =>
      exact (ihInside ((ihOthers hrest).cons (.bracketClose _ _))).cons
        (.begins (.bracketOpen _ _))

private theorem terminals_head {tokens rest : List Token} {condition : Condition}
    (hhead : Head tokens condition rest) (hrest : Terminals rest) : Terminals tokens := by
  obtain ⟨inside⟩ := hhead
  exact ((terminals_exprs inside (hrest.cons (.bracketClose _ _))).cons
    (.begins (.bracketOpen _ _))).cons (.ifWord _)

private theorem terminals_else {tokens rest : List Token} (helse : Else tokens rest)
    (hrest : Terminals rest) : Terminals tokens := by
  induction helse with
  | mk line rest => exact hrest.cons (.elseWord line)
  | stray others ih => exact (ih hrest).cons (.statementEnd _ _)

mutual

/-- A derivation consists of tokens of the grammar. -/
theorem terminals_items : {tokens : List Token} → {phrases : List Phrase} → {rest : List Token} →
    (hitems : Items tokens phrases rest) → (hrest : Terminals rest) → Terminals tokens
  | _, _, _, .nil rest, hrest => hrest
  | _, _, _, .empty others, hrest => (terminals_items others hrest).cons (.statementEnd _ _)
  | _, _, _, .cons first others, hrest => terminals_item first (terminals_items others hrest)

theorem terminals_item : {tokens : List Token} → {phrase : Phrase} → {rest : List Token} →
    (hitem : Item tokens phrase rest) → (hrest : Terminals rest) → Terminals tokens
  | _, _, _, .statement parts, hrest => terminals_exprs parts (hrest.cons (.statementEnd _ _))
  | _, _, _, .block inside, hrest =>
      (terminals_items inside (hrest.cons (.blockClose _ _))).cons (.blockOpen _ _)
  | _, _, _, .conditional head slot, hrest => terminals_head head (terminals_slot slot hrest)
  | _, _, _, .alternative head slot _ word other, hrest =>
      terminals_head head (terminals_slot slot (terminals_else word (terminals_slot other hrest)))

theorem terminals_slot : {tokens : List Token} → {phrase : Phrase} → {rest : List Token} →
    (hslot : Slot tokens phrase rest) → (hrest : Terminals rest) → Terminals tokens
  | _, _, _, .empty text line rest, hrest => hrest.cons (.statementEnd text line)
  | _, _, _, .item whole, hrest => terminals_item whole hrest
  | _, _, _, .beforeElse parts, hrest => terminals_exprs parts hrest

end

end Grammar

namespace Position

open Grammar

/-- Whether tokens can be read to the end of a script. -/
def Accepts (position : Position) (tokens : List Token) : Prop :=
  ∃ final, position.run tokens = .ok final ∧ final.Between ∧ final.around = []

theorem Accepts.of_run_eq {position other : Position} {tokens rest : List Token}
    (haccepts : position.Accepts tokens) (hrun : position.run tokens = other.run rest) :
    other.Accepts rest := by
  rwa [Accepts, hrun] at haccepts

/-- The first token is read, and then the others. -/
theorem Accepts.tail {position : Position} {token : Token} {rest : List Token}
    (haccepts : position.Accepts (token :: rest)) :
    ∃ next, position.read token = .ok next ∧ next.Accepts rest := by
  obtain ⟨final, hrun, hfinal⟩ := haccepts
  obtain ⟨next, hread, hrest⟩ := exists_read_of_run hrun
  exact ⟨next, hread, final, hrest, hfinal⟩

theorem Accepts.of_read {position next : Position} {token : Token} {rest : List Token}
    (haccepts : position.Accepts (token :: rest)) (hread : position.read token = .ok next) :
    next.Accepts rest :=
  haccepts.of_run_eq (run_cons hread rest)

/-- A token that is refused is not the first of any that can be read. -/
theorem Accepts.not_error {position : Position} {token : Token} {rest : List Token}
    (haccepts : position.Accepts (token :: rest)) {error : ParseError} :
    position.read token ≠ .error error := by
  intro herror
  obtain ⟨next, hread, _⟩ := haccepts.tail
  rw [herror] at hread
  cases hread

theorem Accepts.nil {position : Position} (haccepts : position.Accepts []) :
    position.Between ∧ position.around = [] := by
  obtain ⟨final, hrun, hfinal⟩ := haccepts
  obtain rfl := Except.ok.inj hrun
  exact hfinal

/-! ## Expressions -/

/-- A token behind expressions that ends them. -/
inductive EndsExprs : Token → Prop
  | statementEnd (text : String) (line : Nat) : EndsExprs ⟨.statementEnd, text, line⟩
  | bracketClose (text : String) (line : Nat) : EndsExprs ⟨.bracketClose, text, line⟩
  | elseWord (line : Nat) : EndsExprs ⟨.value, "ELSE", line⟩

/-- No expression begins with a token that ends expressions. -/
theorem EndsExprs.not_begins {token : Token} (hends : EndsExprs token) : ¬ Begins token := by
  intro hbegins
  rcases hbegins with ⟨_ | _ | _⟩ | _
  · cases hends
    rename_i hkeyword hoperator
    simp [keywords] at hkeyword
  · cases hends
    rename_i hoperator
    simp [operatorWords] at hoperator
  · cases hends
  · cases hends

/-- What is found behind open expressions: more of them, and a token that ends them,
where the reading goes on. -/
def FindsExprs (position : Position) (anchor : Anchor) (around : List (List Expr × Nat))
    (done : List Expr) (tokens : List Token) : Prop :=
  ∃ exprs token rest, Exprs tokens exprs (token :: rest) ∧ EndsExprs token ∧
    (token :: rest) <:+ tokens ∧
      (position.inExprs anchor around (done ++ exprs)).Accepts (token :: rest)

section

variable {position : Position} {anchor : Anchor} {around : List (List Expr × Nat)}
  {done : List Expr}

private theorem findsExprs_nil {token : Token} {tokens : List Token} (hends : EndsExprs token)
    (haccepts : (position.inExprs anchor around done).Accepts (token :: tokens)) :
    position.FindsExprs anchor around done (token :: tokens) :=
  ⟨[], token, tokens, .nil _, hends, List.suffix_refl _, by rwa [List.append_nil]⟩

private theorem findsExprs_cons {expr : Expr} {token : Token} {tokens middle : List Token}
    (hsuffix : middle <:+ tokens)
    (hcons : ∀ exprs rest, Exprs middle exprs rest → Exprs (token :: tokens) (expr :: exprs) rest)
    (hfound : position.FindsExprs anchor around (done ++ [expr]) middle) :
    position.FindsExprs anchor around done (token :: tokens) := by
  obtain ⟨exprs, ending, rest, hexprs, hends, hrest, hbehind⟩ := hfound
  rw [List.append_assoc, List.singleton_append] at hbehind
  exact ⟨expr :: exprs, ending, rest, hcons _ _ hexprs, hends,
    (hrest.trans hsuffix).trans (List.suffix_cons _ _), hbehind⟩

end

/-- The expressions that tokens begin with, and the token that ends them. -/
theorem exprs_of_accepts (tokens : List Token) (hterminal : ∀ token ∈ tokens, Terminal token)
    (position : Position) (anchor : Anchor) (around : List (List Expr × Nat)) (done : List Expr)
    (haccepts : (position.inExprs anchor around done).Accepts tokens) :
    position.FindsExprs anchor around done tokens := by
  induction hlength : tokens.length using Nat.strongRecOn generalizing tokens around done with
  | ind length ih =>
      cases tokens with
      | nil =>
          have hfocus := haccepts.nil.1.focus
          simp [inExprs] at hfocus
      | cons token tokens =>
          have hothers : ∀ other ∈ tokens, Terminal other :=
            fun other hother => hterminal other (.tail _ hother)
          -- Further on the same holds, whatever has been read of the expressions.
          have hbehind : ∀ (middle : List Token) (around : List (List Expr × Nat))
              (done : List Expr), middle <:+ tokens →
                (position.inExprs anchor around done).Accepts middle →
                  position.FindsExprs anchor around done middle := by
            intro middle around done hsuffix hmiddle
            have hle := hsuffix.length_le
            rw [List.length_cons] at hlength
            exact ih _ (by omega) middle (fun other hother => hothers other (hsuffix.subset hother))
              around done hmiddle rfl
          cases hterminal token (.head _) with
          | begins hbegins =>
              cases hbegins with
              | @leaf _ expr leaf =>
                  apply findsExprs_cons (List.suffix_refl _) (fun _ _ => .leaf leaf)
                  apply hbehind _ _ _ (List.suffix_refl _)
                  apply haccepts.of_read
                  rw [read_leaf leaf]
                  rfl
              | bracketOpen text line =>
                  obtain ⟨inner, ending, middle, hinner, hends, hsuffix, hinside⟩ :=
                    hbehind tokens ((done, line) :: around) [] (List.suffix_refl _)
                      (haccepts.of_read rfl)
                  rw [List.nil_append] at hinside
                  cases hends with
                  | statementEnd text line =>
                      cases anchor <;> exact absurd rfl hinside.not_error
                  | elseWord line => cases anchor <;> exact absurd rfl hinside.not_error
                  | bracketClose text closedLine =>
                      have hmiddle := (List.suffix_cons _ _).trans hsuffix
                      apply findsExprs_cons hmiddle (fun _ _ => .enclosure hinner)
                      exact hbehind _ _ _ hmiddle (hinside.of_read rfl)
          | ifWord line => exact absurd rfl haccepts.not_error
          | elseWord line => exact findsExprs_nil (.elseWord line) haccepts
          | statementEnd text line => exact findsExprs_nil (.statementEnd text line) haccepts
          | bracketClose text line => exact findsExprs_nil (.bracketClose text line) haccepts
          | blockOpen text line => exact absurd rfl haccepts.not_error
          | blockClose text line =>
              rcases around with _ | _ <;> cases anchor <;> exact absurd rfl haccepts.not_error

/-! ## Phrases -/

/-- What tokens begin with where a phrase can begin. -/
structure Found (position : Position) (tokens : List Token) (phrase : Phrase)
    (rest : List Token) : Prop where
  slot : Slot tokens phrase rest
  item : position.level.inSlot = false → Item tokens phrase rest
  suffix : rest <:+ tokens
  shorter : rest.length < tokens.length
  accepts : (position.addPhrase phrase).Accepts rest
  /-- An `ELSE` behind the phrase belongs to none of its `IF`s. -/
  nearest : ∀ after, Else rest after → phrase.openIfs = 0

/-- An expression where a phrase can begin begins a statement. -/
private theorem found_statement {token : Token} {others : List Token}
    (hterminal : ∀ other ∈ token :: others, Terminal other) (hbegins : Begins token)
    {position : Position} (hfocus : position.focus = .phrase)
    (haccepts : position.Accepts (token :: others)) :
    ∃ phrase rest, position.Found (token :: others) phrase rest := by
  have hinside : (position.inExprs (.statement token.line) [] []).Accepts (token :: others) :=
    haccepts.of_run_eq (by rw [run, run, read_begins hbegins position hfocus])
  obtain ⟨exprs, ending, rest, hexprs, hends, hsuffix, hbehind⟩ :=
    exprs_of_accepts (token :: others) hterminal position (.statement token.line) [] [] hinside
  rw [List.nil_append] at hbehind
  -- What a statement begins with does not end it.
  obtain ⟨first, following, rfl⟩ : ∃ first following, exprs = first :: following := by
    cases exprs with
    | nil =>
        cases hexprs
        exact absurd hbegins hends.not_begins
    | cons first following => exact ⟨first, following, rfl⟩
  have hline : first.line = token.line := by
    obtain ⟨_, _, htokens, _, hline⟩ := begins_of_exprs hexprs
    rw [hline, (List.cons.inj htokens).1]
  have hshorter : (ending :: rest).length < (token :: others).length := by
    refine Nat.lt_of_le_of_ne hsuffix.length_le fun hequal => ?_
    obtain ⟨rfl, -⟩ := List.cons.inj (hsuffix.eq_of_length hequal)
    exact hends.not_begins hbegins
  rw [← hline] at hbehind
  cases hends with
  | statementEnd text line =>
      exact ⟨_, rest, {
        slot := .item (.statement hexprs)
        item := fun _ => .statement hexprs
        suffix := (List.suffix_cons _ _).trans hsuffix
        shorter := Nat.lt_of_succ_lt hshorter
        accepts := hbehind.of_read (read_statementEnd text line)
        nearest := fun _ _ => rfl }⟩
  | bracketClose text line => exact absurd rfl hbehind.not_error
  | elseWord line =>
      cases hslot : position.level.inSlot with
      | true =>
          exact ⟨_, _, {
            slot := .beforeElse hexprs
            item := fun hitem => by simp [hslot] at hitem
            suffix := hsuffix
            shorter := hshorter
            accepts := hbehind.of_run_eq (by
              rw [run, run, read_else_statement, if_pos hslot])
            nearest := fun _ _ => rfl }⟩
      | false =>
          have herror := read_else_statement position first.line (first :: following) line
          rw [hslot, if_neg (by simp)] at herror
          exact absurd herror hbehind.not_error

/-- The phrases that tokens begin with, up to a closing brace or the end. -/
def FindsItems (tokens : List Token) : Prop :=
  ∀ position : Position, position.Between →
    (∀ after, Else tokens after → position.level.done.getLast?.bind Phrase.resume? = none) →
    position.Accepts tokens →
    ∃ phrases rest, Items tokens phrases rest ∧ rest <:+ tokens ∧
      (position.addPhrases phrases).Accepts rest ∧
      (rest = [] ∨ ∃ text line others, rest = ⟨.blockClose, text, line⟩ :: others)

/-- The phrase that tokens begin with in a slot. -/
def FindsSlot (tokens : List Token) : Prop :=
  ∀ position : Position, position.focus = .phrase → position.level.inSlot = true →
    position.Accepts tokens → ∃ phrase rest, position.Found tokens phrase rest

/-- An opening brace begins a block. -/
private theorem found_block {text : String} {line : Nat} {others : List Token}
    (hitems : FindsItems others) {position : Position} (hfocus : position.focus = .phrase)
    (haccepts : position.Accepts (⟨.blockOpen, text, line⟩ :: others)) :
    ∃ phrase rest, position.Found (⟨.blockOpen, text, line⟩ :: others) phrase rest := by
  obtain ⟨phrases, ending, hinside, hsuffix, hbehind, hending⟩ := hitems (position.inBlock line)
    ⟨rfl, rfl⟩ (fun _ _ => rfl) (haccepts.of_read (read_blockOpen hfocus text line))
  rcases hending with rfl | ⟨closed, closedLine, rest, rfl⟩
  · have haround := hbehind.nil.2
    simp [addPhrases, inBlock] at haround
  · exact ⟨.block line phrases, rest, {
      slot := .item (.block hinside)
      item := fun _ => .block hinside
      suffix := (List.suffix_cons _ _).trans (hsuffix.trans (List.suffix_cons _ _))
      shorter := by
        have hle := hsuffix.length_le
        simp only [List.length_cons] at hle ⊢
        omega
      accepts := hbehind.of_read (read_blockClose position line phrases closed closedLine)
      nearest := fun _ _ => rfl }⟩

/-- The condition that follows an `IF`. -/
private theorem head_of_accepts {line : Nat} {others : List Token}
    (hterminal : ∀ other ∈ others, Terminal other) {position : Position}
    (hfocus : position.focus = .phrase)
    (haccepts : position.Accepts (⟨.value, "IF", line⟩ :: others)) :
    ∃ condition rest, Head (⟨.value, "IF", line⟩ :: others) condition rest ∧ rest <:+ others ∧
      (position.openBody condition).Accepts rest := by
  have hhead : ({ position with focus := .head line } : Position).Accepts others := by
    refine haccepts.of_read ?_
    rcases position with ⟨level, around, focus⟩
    obtain rfl := hfocus
    rfl
  cases others with
  | nil =>
      have hnil := hhead.nil.1.focus
      simp at hnil
  | cons token others =>
      cases hterminal token (.head _) with
      | begins hbegins =>
          cases hbegins with
          | leaf leaf =>
              have herror := read_leaf leaf { position with focus := .head line }
              exact absurd herror hhead.not_error
          | bracketOpen opened bracketLine =>
              have hinside : (position.inExprs (.condition line bracketLine) [] []).Accepts
                  others := hhead.of_read rfl
              obtain ⟨exprs, ending, rest, hexprs, hends, hsuffix, hbehind⟩ :=
                exprs_of_accepts others (fun other hother => hterminal other (.tail _ hother))
                  position (.condition line bracketLine) [] [] hinside
              rw [List.nil_append] at hbehind
              cases hends with
              | statementEnd text line => exact absurd rfl hbehind.not_error
              | elseWord line => exact absurd rfl hbehind.not_error
              | bracketClose closed closedLine =>
                  refine ⟨⟨line, bracketLine, exprs⟩, rest, .mk hexprs, ?_, hbehind.of_read rfl⟩
                  exact (List.suffix_cons _ _).trans (hsuffix.trans (List.suffix_cons _ _))
      | ifWord line => exact absurd rfl hhead.not_error
      | elseWord line => exact absurd rfl hhead.not_error
      | statementEnd text line => exact absurd rfl hhead.not_error
      | bracketClose text line => exact absurd rfl hhead.not_error
      | blockOpen text line => exact absurd rfl hhead.not_error
      | blockClose text line => exact absurd rfl hhead.not_error

theorem suffix_of_else {tokens rest : List Token} (helse : Else tokens rest) :
    rest <:+ tokens := by
  induction helse with
  | mk line rest => exact List.suffix_cons _ _
  | stray others ih => exact ih.trans (List.suffix_cons _ _)

/-- An `IF` begins a conditional, which has an `ELSE` if one follows its body. -/
private theorem found_conditional {line : Nat} {others : List Token}
    (hterminal : ∀ other ∈ others, Terminal other)
    (hslots : ∀ tokens, tokens <:+ others → FindsSlot tokens) {position : Position}
    (hfocus : position.focus = .phrase)
    (haccepts : position.Accepts (⟨.value, "IF", line⟩ :: others)) :
    ∃ phrase rest, position.Found (⟨.value, "IF", line⟩ :: others) phrase rest := by
  obtain ⟨condition, middle, hhead, hmiddle, hbody⟩ :=
    head_of_accepts hterminal hfocus haccepts
  obtain ⟨body, behind, hfound⟩ := hslots middle hmiddle (position.openBody condition) rfl
    (inSlot_openBody position condition) hbody
  have hbehind := hfound.accepts
  rw [addPhrase_openBody] at hbehind
  by_cases helse : ∃ after, Else behind after
  · obtain ⟨after, helse⟩ := helse
    have hnearest := hfound.nearest after helse
    have hafter : after <:+ others := ((suffix_of_else helse).trans hfound.suffix).trans hmiddle
    have hother : (position.openOther condition body).Accepts after :=
      hbehind.of_run_eq (read_else helse _ _ (between_addPhrase position _)
        (resume_addPhrase position hnearest))
    obtain ⟨alternate, rest, hlast⟩ := hslots after hafter (position.openOther condition body)
      rfl (inSlot_openOther position condition body) hother
    have hitem : Item (⟨.value, "IF", line⟩ :: others) (.alternative condition body alternate)
        rest := .alternative hhead hfound.slot hnearest helse hlast.slot
    exact ⟨_, rest, {
      slot := .item hitem
      item := fun _ => hitem
      suffix := (hlast.suffix.trans hafter).trans (List.suffix_cons _ _)
      shorter := by
        have hle := (hlast.suffix.trans hafter).length_le
        simp only [List.length_cons]
        omega
      accepts := by
        rw [← addPhrase_openOther]
        exact hlast.accepts
      nearest := by
        intro next hnext
        rw [Phrase.openIfs, hnearest, hlast.nearest next hnext] }⟩
  · have hitem : Item (⟨.value, "IF", line⟩ :: others) (.conditional condition body) behind :=
      .conditional hhead hfound.slot
    exact ⟨_, behind, {
      slot := .item hitem
      item := fun _ => hitem
      suffix := (hfound.suffix.trans hmiddle).trans (List.suffix_cons _ _)
      shorter := by
        have hle := (hfound.suffix.trans hmiddle).length_le
        simp only [List.length_cons]
        omega
      accepts := hbehind
      nearest := fun after hafter => absurd ⟨after, hafter⟩ helse }⟩

/-- A token that a phrase begins with. -/
inductive BeginsItem : Token → Prop
  | begins {token : Token} (hbegins : Begins token) : BeginsItem token
  | ifWord (line : Nat) : BeginsItem ⟨.value, "IF", line⟩
  | blockOpen (text : String) (line : Nat) : BeginsItem ⟨.blockOpen, text, line⟩

/-- What is found behind a token is found at it. -/
private theorem found_item {token : Token} {others : List Token}
    (hterminal : ∀ other ∈ token :: others, Terminal other)
    (hitems : FindsItems others) (hslots : ∀ tokens, tokens <:+ others → FindsSlot tokens)
    (hbegins : BeginsItem token) {position : Position} (hfocus : position.focus = .phrase)
    (haccepts : position.Accepts (token :: others)) :
    ∃ phrase rest, position.Found (token :: others) phrase rest := by
  cases hbegins with
  | begins hbegins => exact found_statement hterminal hbegins hfocus haccepts
  | ifWord line =>
      exact found_conditional (fun other hother => hterminal other (.tail _ hother)) hslots
        hfocus haccepts
  | blockOpen text line => exact found_block hitems hfocus haccepts

private theorem findsSlot_cons {token : Token} {others : List Token}
    (hterminal : ∀ other ∈ token :: others, Terminal other)
    (hitems : FindsItems others) (hslots : ∀ tokens, tokens <:+ others → FindsSlot tokens) :
    FindsSlot (token :: others) := by
  intro position hfocus hslot haccepts
  have hitem : BeginsItem token → ∃ phrase rest, position.Found (token :: others) phrase rest :=
    fun hbegins => found_item hterminal hitems hslots hbegins hfocus haccepts
  cases hterminal token (.head _) with
  | begins hbegins => exact hitem (.begins hbegins)
  | ifWord line => exact hitem (.ifWord line)
  | blockOpen text line => exact hitem (.blockOpen text line)
  | statementEnd text line =>
      refine ⟨.statement line [], others, {
        slot := .empty text line others
        item := fun hitem => by simp [hslot] at hitem
        suffix := List.suffix_cons _ _
        shorter := by simp
        accepts := haccepts.of_read ?_
        nearest := fun _ _ => rfl }⟩
      have hstep : position.read ⟨.statementEnd, text, line⟩ =
          position.endStatement none line := rfl
      rw [hstep, endStatement, hfocus]
      simp only [hslot, if_true]
      rfl
  | elseWord line =>
      have hstep : position.read ⟨.value, "ELSE", line⟩ = position.openAlternate line := rfl
      have herror : position.read ⟨.value, "ELSE", line⟩ = .error (.elseWithoutIf line) := by
        rw [hstep, openAlternate, hfocus, resume, Level.resume, hslot]
        rfl
      exact absurd herror haccepts.not_error
  | bracketClose text line =>
      have hstep : position.read ⟨.bracketClose, text, line⟩ = position.closeBracket line := rfl
      have herror : position.read ⟨.bracketClose, text, line⟩ =
          .error (.mismatchedClose .statement .bracket line) := by
        rw [hstep, closeBracket, hfocus, hslot]
        rfl
      exact absurd herror haccepts.not_error
  | blockClose text line =>
      have hstep : position.read ⟨.blockClose, text, line⟩ = position.closeBlock line := rfl
      have herror : position.read ⟨.blockClose, text, line⟩ =
          .error (.mismatchedClose .statement .block line) := by
        rw [hstep, closeBlock, hfocus, hslot]
        rfl
      exact absurd herror haccepts.not_error

private theorem findsSlot_nil : FindsSlot [] := by
  intro position _ hslot haccepts
  have hbetween := haccepts.nil.1.inSlot
  rw [hslot] at hbetween
  cases hbetween

private theorem findsItems_nil : FindsItems [] := by
  intro position hbetween _ haccepts
  exact ⟨[], [], .nil [], List.suffix_refl _, by rwa [hbetween.eq_addPhrases], .inl rfl⟩

private theorem findsItems_cons {token : Token} {others : List Token}
    (hterminal : ∀ other ∈ token :: others, Terminal other)
    (hitems : ∀ tokens, tokens <:+ others → FindsItems tokens)
    (hslots : ∀ tokens, tokens <:+ others → FindsSlot tokens) :
    FindsItems (token :: others) := by
  intro position hbetween hnone haccepts
  have hitem : BeginsItem token → ∃ phrases rest, Items (token :: others) phrases rest ∧
      rest <:+ token :: others ∧ (position.addPhrases phrases).Accepts rest ∧
      (rest = [] ∨ ∃ text line tail, rest = ⟨.blockClose, text, line⟩ :: tail) := by
    intro hbegins
    obtain ⟨phrase, middle, hfound⟩ := found_item hterminal (hitems _ (List.suffix_refl _))
      hslots hbegins hbetween.focus haccepts
    have hmiddle : middle <:+ others := by
      rcases List.suffix_cons_iff.mp hfound.suffix with hsame | hsuffix
      · exact absurd hfound.shorter (by simp [hsame])
      · exact hsuffix
    have hbehind := hfound.accepts
    rw [hbetween.addPhrase_eq] at hbehind
    obtain ⟨phrases, rest, hrest, hsuffix, hlast, hending⟩ := hitems middle hmiddle
      (position.addPhrases [phrase]) (between_addPhrases _ _) (by
        intro after helse
        simp [addPhrases, resume?_of_openIfs (hfound.nearest after helse)]) hbehind
    rw [addPhrases_addPhrases, List.singleton_append] at hlast
    exact ⟨phrase :: phrases, rest, .cons (hfound.item hbetween.inSlot) hrest,
      (hsuffix.trans hmiddle).trans (List.suffix_cons _ _), hlast, hending⟩
  cases hterminal token (.head _) with
  | begins hbegins => exact hitem (.begins hbegins)
  | ifWord line => exact hitem (.ifWord line)
  | blockOpen text line => exact hitem (.blockOpen text line)
  | statementEnd text line =>
      have hread : position.read ⟨.statementEnd, text, line⟩ = .ok position := by
        have hstep : position.read ⟨.statementEnd, text, line⟩ =
            position.endStatement none line := rfl
        rw [hstep, endStatement, hbetween.focus]
        simp [hbetween.inSlot]
      obtain ⟨phrases, rest, hrest, hsuffix, hlast, hending⟩ := hitems others
        (List.suffix_refl _) position hbetween (fun after helse => hnone after (.stray helse))
        (haccepts.of_read hread)
      exact ⟨phrases, rest, .empty hrest, hsuffix.trans (List.suffix_cons _ _), hlast, hending⟩
  | elseWord line =>
      have hstep : position.read ⟨.value, "ELSE", line⟩ = position.openAlternate line := rfl
      have herror : position.read ⟨.value, "ELSE", line⟩ = .error (.elseWithoutIf line) := by
        rw [hstep, openAlternate, hbetween.focus, resume, Level.resume, hbetween.inSlot,
          hnone _ (.mk line others)]
        rfl
      exact absurd herror haccepts.not_error
  | bracketClose text line =>
      have hstep : position.read ⟨.bracketClose, text, line⟩ = position.closeBracket line := rfl
      obtain ⟨next, hread, _⟩ := haccepts.tail
      rw [hstep, closeBracket, hbetween.focus, hbetween.inSlot] at hread
      cases haround : position.around <;> simp [haround] at hread
  | blockClose text line =>
      exact ⟨[], _, .nil _, List.suffix_refl _, by rwa [hbetween.eq_addPhrases],
        .inr ⟨text, line, others, rfl⟩⟩

private theorem finds_all (tokens : List Token) (hterminal : ∀ token ∈ tokens, Terminal token) :
    ∀ rest, rest <:+ tokens → FindsItems rest ∧ FindsSlot rest := by
  induction tokens with
  | nil =>
      intro rest hrest
      obtain rfl := List.suffix_nil.mp hrest
      exact ⟨findsItems_nil, findsSlot_nil⟩
  | cons token others ih =>
      have hothers := ih fun other hother => hterminal other (.tail _ hother)
      intro rest hrest
      rcases List.suffix_cons_iff.mp hrest with rfl | hsuffix
      · exact ⟨findsItems_cons hterminal (fun tokens hsuffix => (hothers tokens hsuffix).1)
            (fun tokens hsuffix => (hothers tokens hsuffix).2),
          findsSlot_cons hterminal (hothers others (List.suffix_refl _)).1
            (fun tokens hsuffix => (hothers tokens hsuffix).2)⟩
      · exact hothers rest hsuffix

/-- Tokens that can be read from the beginning of a script to its end are the
phrases of one. -/
theorem items_of_accepts {tokens : List Token} (hterminal : ∀ token ∈ tokens, Terminal token)
    (haccepts : ({} : Position).Accepts tokens) : ∃ phrases, Items tokens phrases [] := by
  obtain ⟨phrases, rest, hitems, _, hbehind, hending⟩ :=
    (finds_all tokens hterminal tokens (List.suffix_refl _)).1 {} ⟨rfl, rfl⟩ (fun _ _ => rfl)
      haccepts
  rcases hending with rfl | ⟨text, line, others, rfl⟩
  · exact ⟨phrases, hitems⟩
  · exact absurd rfl hbehind.not_error

end Position

end SignalScript
