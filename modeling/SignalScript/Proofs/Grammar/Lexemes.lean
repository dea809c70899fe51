import SignalScript.Proofs.Grammar.Derivation
import SignalScript.Proofs.Token.Found

/-!
# The lexemes of phrases

How phrases are written: every statement with its `;`, and no other `;`.  Phrases
that were read from a text are sound, which is all it takes to read their lexemes
as the same phrases again, wherever they stand.
-/

namespace SignalScript

mutual

def Expr.lexemes : Expr → List Lexeme
  | .value _ text => [⟨.value, text⟩]
  | .operator _ text => [⟨if text ∈ operatorWords then .value else .operator, text⟩]
  | .enclosure _ exprs => ⟨.bracketOpen, "("⟩ :: (Expr.allLexemes exprs ++ [⟨.bracketClose, ")"⟩])

def Expr.allLexemes : List Expr → List Lexeme
  | [] => []
  | first :: rest => first.lexemes ++ Expr.allLexemes rest

end

/-- What stands behind the `IF`. -/
def Condition.lexemes (condition : Condition) : List Lexeme :=
  ⟨.bracketOpen, "("⟩ :: (Expr.allLexemes condition.exprs ++ [⟨.bracketClose, ")"⟩])

mutual

def Phrase.lexemes : Phrase → List Lexeme
  | .statement _ exprs => Expr.allLexemes exprs ++ [⟨.statementEnd, ";"⟩]
  | .block _ phrases =>
    ⟨.blockOpen, "\x7b"⟩ :: (Phrase.allLexemes phrases ++ [⟨.blockClose, "\x7d"⟩])
  | .conditional condition body => ⟨.value, "IF"⟩ :: (condition.lexemes ++ body.lexemes)
  | .alternative condition body alternate =>
    ⟨.value, "IF"⟩ ::
      (condition.lexemes ++ (body.lexemes ++ ⟨.value, "ELSE"⟩ :: alternate.lexemes))

def Phrase.allLexemes : List Phrase → List Lexeme
  | [] => []
  | first :: rest => first.lexemes ++ Phrase.allLexemes rest

end

/-! ## Soundness -/

mutual

/-- Whether the leaves of an expression can be read as what they are. -/
def Expr.Sound : Expr → Prop
  | .value _ text => IsWord text ∧ text ∉ keywords ∧ text ∉ operatorWords
  | .operator _ text => text ∈ operatorWords ∨ text ∈ symbols
  | .enclosure _ exprs => Expr.AllSound exprs

def Expr.AllSound : List Expr → Prop
  | [] => True
  | first :: rest => first.Sound ∧ Expr.AllSound rest

end

mutual

/-- Whether a phrase can be read as what it is; `inSlot` tells whether it is the
body or alternate of a conditional. -/
def Phrase.Sound (inSlot : Bool) : Phrase → Prop
  | .statement _ exprs => (inSlot = true ∨ exprs ≠ []) ∧ Expr.AllSound exprs
  | .block _ phrases => Phrase.AllSound phrases
  | .conditional condition body => Expr.AllSound condition.exprs ∧ body.Sound true
  | .alternative condition body alternate =>
    Expr.AllSound condition.exprs ∧ body.Sound true ∧ body.openIfs = 0 ∧ alternate.Sound true

def Phrase.AllSound : List Phrase → Prop
  | [] => True
  | first :: rest => first.Sound false ∧ Phrase.AllSound rest

end

/-- More can stand in a slot than elsewhere. -/
theorem Phrase.Sound.inSlot {phrase : Phrase} (hsound : phrase.Sound false) :
    phrase.Sound true := by
  cases phrase with
  | statement line exprs => exact ⟨.inl rfl, hsound.2⟩
  | block line phrases => exact hsound
  | conditional condition body => exact hsound
  | alternative condition body alternate => exact hsound

namespace Grammar

/-- Whether all tokens of a list have sound lexemes. -/
def SoundTokens (tokens : List Token) : Prop :=
  ∀ token ∈ tokens, token.lexeme.Sound

theorem SoundTokens.tail {token : Token} {tokens : List Token}
    (htokens : SoundTokens (token :: tokens)) : SoundTokens tokens :=
  fun other hmem => htokens other (.tail _ hmem)

theorem sound_leaf {token : Token} {expr : Expr} (hleaf : Leaf token expr)
    (htoken : token.lexeme.Sound) : expr.Sound := by
  cases hleaf with
  | value text line hkeyword hoperator => exact ⟨htoken, hkeyword, hoperator⟩
  | word text line hoperator => exact .inl hoperator
  | operator text line => exact .inr htoken

theorem sound_exprs {tokens rest : List Token} {exprs : List Expr}
    (hexprs : Exprs tokens exprs rest) (htokens : SoundTokens tokens) :
    Expr.AllSound exprs ∧ SoundTokens rest := by
  induction hexprs with
  | nil rest => exact ⟨trivial, htokens⟩
  | leaf first others ih =>
      obtain ⟨hothers, hrest⟩ := ih htokens.tail
      exact ⟨⟨sound_leaf first (htokens _ (.head _)), hothers⟩, hrest⟩
  | enclosure inside others ihInside ihOthers =>
      obtain ⟨hinner, hmiddle⟩ := ihInside htokens.tail
      obtain ⟨hothers, hrest⟩ := ihOthers hmiddle.tail
      exact ⟨⟨hinner, hothers⟩, hrest⟩

theorem sound_head {tokens rest : List Token} {condition : Condition}
    (hhead : Head tokens condition rest) (htokens : SoundTokens tokens) :
    Expr.AllSound condition.exprs ∧ SoundTokens rest := by
  obtain ⟨inside⟩ := hhead
  obtain ⟨hexprs, hrest⟩ := sound_exprs inside htokens.tail.tail
  exact ⟨hexprs, hrest.tail⟩

theorem sound_else {tokens rest : List Token} (helse : Else tokens rest)
    (htokens : SoundTokens tokens) : SoundTokens rest := by
  induction helse with
  | mk line rest => exact htokens.tail
  | stray others ih => exact ih htokens.tail

mutual

theorem sound_items : {tokens : List Token} → {phrases : List Phrase} → {rest : List Token} →
    (hitems : Items tokens phrases rest) → (htokens : SoundTokens tokens) →
      Phrase.AllSound phrases ∧ SoundTokens rest
  | _, _, _, .nil rest, htokens => ⟨trivial, htokens⟩
  | _, _, _, .empty others, htokens => sound_items others htokens.tail
  | _, _, _, .cons first others, htokens => by
      obtain ⟨hfirst, hmiddle⟩ := sound_item first htokens
      obtain ⟨hothers, hrest⟩ := sound_items others hmiddle
      exact ⟨⟨hfirst, hothers⟩, hrest⟩

theorem sound_item : {tokens : List Token} → {phrase : Phrase} → {rest : List Token} →
    (hitem : Item tokens phrase rest) → (htokens : SoundTokens tokens) →
      phrase.Sound false ∧ SoundTokens rest
  | _, _, _, .statement parts, htokens => by
      obtain ⟨hexprs, hrest⟩ := sound_exprs parts htokens
      exact ⟨⟨.inr (by simp), hexprs⟩, hrest.tail⟩
  | _, _, _, .block inside, htokens => by
      obtain ⟨hphrases, hrest⟩ := sound_items inside htokens.tail
      exact ⟨hphrases, hrest.tail⟩
  | _, _, _, .conditional head slot, htokens => by
      obtain ⟨hcondition, hmiddle⟩ := sound_head head htokens
      obtain ⟨hbody, hrest⟩ := sound_slot slot hmiddle
      exact ⟨⟨hcondition, hbody⟩, hrest⟩
  | _, _, _, .alternative head slot hnearest word other, htokens => by
      obtain ⟨hcondition, hmiddle⟩ := sound_head head htokens
      obtain ⟨hbody, hbehind⟩ := sound_slot slot hmiddle
      obtain ⟨halternate, hrest⟩ := sound_slot other (sound_else word hbehind)
      exact ⟨⟨hcondition, hbody, hnearest, halternate⟩, hrest⟩

theorem sound_slot : {tokens : List Token} → {phrase : Phrase} → {rest : List Token} →
    (hslot : Slot tokens phrase rest) → (htokens : SoundTokens tokens) →
      phrase.Sound true ∧ SoundTokens rest
  | _, _, _, .empty text line rest, htokens => ⟨⟨.inl rfl, trivial⟩, htokens.tail⟩
  | _, _, _, .item whole, htokens => by
      obtain ⟨hphrase, hrest⟩ := sound_item whole htokens
      exact ⟨hphrase.inSlot, hrest⟩
  | _, _, _, .beforeElse parts, htokens => by
      obtain ⟨hexprs, hrest⟩ := sound_exprs parts htokens
      exact ⟨⟨.inl rfl, hexprs⟩, hrest⟩

end

end Grammar

/-! ## Phrases without their lines -/

mutual

def Expr.unplaced : Expr → Expr
  | .value _ text => .value 0 text
  | .operator _ text => .operator 0 text
  | .enclosure _ exprs => .enclosure 0 (Expr.allUnplaced exprs)

def Expr.allUnplaced : List Expr → List Expr
  | [] => []
  | first :: rest => first.unplaced :: Expr.allUnplaced rest

end

def Condition.unplaced (condition : Condition) : Condition :=
  ⟨0, 0, Expr.allUnplaced condition.exprs⟩

mutual

def Phrase.unplaced : Phrase → Phrase
  | .statement _ exprs => .statement 0 (Expr.allUnplaced exprs)
  | .block _ phrases => .block 0 (Phrase.allUnplaced phrases)
  | .conditional condition body => .conditional condition.unplaced body.unplaced
  | .alternative condition body alternate =>
    .alternative condition.unplaced body.unplaced alternate.unplaced

def Phrase.allUnplaced : List Phrase → List Phrase
  | [] => []
  | first :: rest => first.unplaced :: Phrase.allUnplaced rest

end

@[simp]
theorem Phrase.openIfs_unplaced : (phrase : Phrase) → phrase.unplaced.openIfs = phrase.openIfs
  | .statement _ _ => rfl
  | .block _ _ => rfl
  | .conditional _ body => by
      rw [unplaced, openIfs, openIfs, openIfs_unplaced body]
  | .alternative _ body alternate => by
      rw [unplaced, openIfs, openIfs, openIfs_unplaced body, openIfs_unplaced alternate]

namespace Grammar

/-! ## Reading lexemes again -/

private theorem cons_of_map_lexeme {tokens : List Token} {lexeme : Lexeme} {others : List Lexeme}
    (htokens : tokens.map Token.lexeme = lexeme :: others) :
    ∃ (line : Nat) (rest : List Token),
      tokens = lexeme.onLine line :: rest ∧ rest.map Token.lexeme = others := by
  obtain ⟨token, rest, rfl, rfl, hrest⟩ := List.map_eq_cons_iff.mp htokens
  exact ⟨token.line, rest, rfl, hrest⟩

mutual

theorem expr_of_lexemes : (expr : Expr) → (hsound : expr.Sound) → {tokens : List Token} →
    {others : List Lexeme} → (htokens : tokens.map Token.lexeme = expr.lexemes ++ others) →
      ∃ (again : Expr) (middle : List Token), again.unplaced = expr.unplaced ∧
        middle.map Token.lexeme = others ∧
          ∀ {exprs : List Expr} {rest : List Token}, Exprs middle exprs rest →
            Exprs tokens (again :: exprs) rest
  | .value _ text, hsound, tokens, others, htokens => by
      obtain ⟨line, rest, rfl, hrest⟩ := cons_of_map_lexeme htokens
      exact ⟨.value line text, rest, rfl, hrest,
        fun hothers => .leaf (.value text line hsound.2.1 hsound.2.2) hothers⟩
  | .operator _ text, hsound, tokens, others, htokens => by
      obtain ⟨line, rest, rfl, hrest⟩ := cons_of_map_lexeme htokens
      refine ⟨.operator line text, rest, rfl, hrest, fun hothers => .leaf ?_ hothers⟩
      by_cases hoperator : text ∈ operatorWords
      · rw [if_pos hoperator]
        exact .word text line hoperator
      · rw [if_neg hoperator]
        exact .operator text line
  | .enclosure _ exprs, hsound, tokens, others, htokens => by
      rw [Expr.lexemes, List.cons_append, List.append_assoc] at htokens
      obtain ⟨line, inner, rfl, hinner⟩ := cons_of_map_lexeme htokens
      obtain ⟨again, behind, hagain, hbehind, hexprs⟩ := exprs_of_lexemes exprs hsound hinner
      obtain ⟨closedLine, rest, rfl, hrest⟩ := cons_of_map_lexeme hbehind
      refine ⟨.enclosure line again, rest, ?_, hrest, fun hothers => .enclosure hexprs hothers⟩
      rw [Expr.unplaced, Expr.unplaced, hagain]

theorem exprs_of_lexemes : (exprs : List Expr) → (hsound : Expr.AllSound exprs) →
    {tokens : List Token} → {others : List Lexeme} →
      (htokens : tokens.map Token.lexeme = Expr.allLexemes exprs ++ others) →
        ∃ (again : List Expr) (rest : List Token),
          Expr.allUnplaced again = Expr.allUnplaced exprs ∧ rest.map Token.lexeme = others ∧
            Exprs tokens again rest
  | [], _, tokens, others, htokens => ⟨[], tokens, rfl, htokens, .nil tokens⟩
  | first :: exprs, hsound, tokens, others, htokens => by
      rw [Expr.allLexemes, List.append_assoc] at htokens
      obtain ⟨again, middle, hagain, hmiddle, hfirst⟩ := expr_of_lexemes first hsound.1 htokens
      obtain ⟨others, rest, hothers, hrest, hexprs⟩ := exprs_of_lexemes exprs hsound.2 hmiddle
      refine ⟨again :: others, rest, ?_, hrest, hfirst hexprs⟩
      rw [Expr.allUnplaced, Expr.allUnplaced, hagain, hothers]

end

/-- Whether the lexemes of a phrase, whatever follows them, can be read as that
phrase again. -/
def ReadsAs (derives : List Token → Phrase → List Token → Prop) (phrase : Phrase) : Prop :=
  ∀ (tokens : List Token) (others : List Lexeme),
    tokens.map Token.lexeme = phrase.lexemes ++ others →
      ∃ (again : Phrase) (rest : List Token), again.unplaced = phrase.unplaced ∧
        rest.map Token.lexeme = others ∧ derives tokens again rest

/-- In a slot only the empty statement is new. -/
private theorem slot_of_item {phrase : Phrase} (hsound : phrase.Sound true)
    (hitem : phrase.Sound false → ReadsAs Item phrase) : ReadsAs Slot phrase := by
  intro tokens others htokens
  by_cases hitemSound : phrase.Sound false
  · obtain ⟨again, rest, hagain, hrest, hderives⟩ := hitem hitemSound _ _ htokens
    exact ⟨again, rest, hagain, hrest, .item hderives⟩
  · cases phrase with
    | statement line exprs =>
        cases exprs with
        | nil =>
            obtain ⟨line, rest, rfl, hrest⟩ := cons_of_map_lexeme htokens
            exact ⟨.statement line [], rest, rfl, hrest, .empty ";" line rest⟩
        | cons first exprs => exact absurd ⟨.inr (by simp), hsound.2⟩ hitemSound
    | block line phrases => exact absurd hsound hitemSound
    | conditional condition body => exact absurd hsound hitemSound
    | alternative condition body alternate => exact absurd hsound hitemSound

private theorem head_of_lexemes {condition : Condition} (hsound : Expr.AllSound condition.exprs)
    {tokens : List Token} {others : List Lexeme}
    (htokens : tokens.map Token.lexeme = ⟨.value, "IF"⟩ :: (condition.lexemes ++ others)) :
    ∃ (again : Condition) (rest : List Token), again.unplaced = condition.unplaced ∧
      rest.map Token.lexeme = others ∧ Head tokens again rest := by
  obtain ⟨line, brackets, rfl, hbrackets⟩ := cons_of_map_lexeme htokens
  rw [Condition.lexemes, List.cons_append, List.append_assoc] at hbrackets
  obtain ⟨bracketLine, inner, rfl, hinner⟩ := cons_of_map_lexeme hbrackets
  obtain ⟨exprs, behind, hexprs, hbehind, hinside⟩ := exprs_of_lexemes condition.exprs hsound hinner
  obtain ⟨closedLine, rest, rfl, hrest⟩ := cons_of_map_lexeme hbehind
  refine ⟨⟨line, bracketLine, exprs⟩, rest, ?_, hrest, .mk hinside⟩
  rw [Condition.unplaced, Condition.unplaced, hexprs]

mutual

theorem item_of_lexemes : (phrase : Phrase) → (hsound : phrase.Sound false) → ReadsAs Item phrase
  | .statement line exprs, hsound => by
      intro tokens others htokens
      rw [Phrase.lexemes, List.append_assoc] at htokens
      obtain ⟨again, behind, hagain, hbehind, hexprs⟩ := exprs_of_lexemes exprs hsound.2 htokens
      obtain ⟨endLine, rest, rfl, hrest⟩ := cons_of_map_lexeme hbehind
      cases again with
      | nil =>
          cases exprs with
          | nil => simp [Phrase.Sound] at hsound
          | cons first others => simp [Expr.allUnplaced] at hagain
      | cons first others =>
          refine ⟨.statement first.line (first :: others), rest, ?_, hrest, .statement hexprs⟩
          rw [Phrase.unplaced, Phrase.unplaced, hagain]
  | .block line phrases, hsound => by
      intro tokens others htokens
      rw [Phrase.lexemes, List.cons_append, List.append_assoc] at htokens
      obtain ⟨openLine, inner, rfl, hinner⟩ := cons_of_map_lexeme htokens
      obtain ⟨again, behind, hagain, hbehind, hitems⟩ := items_of_lexemes phrases hsound hinner
      obtain ⟨closedLine, rest, rfl, hrest⟩ := cons_of_map_lexeme hbehind
      refine ⟨.block openLine again, rest, ?_, hrest, .block hitems⟩
      rw [Phrase.unplaced, Phrase.unplaced, hagain]
  | .conditional condition body, hsound => by
      intro tokens others htokens
      rw [Phrase.lexemes, List.cons_append, List.append_assoc] at htokens
      obtain ⟨head, middle, hhead, hmiddle, hderives⟩ := head_of_lexemes hsound.1 htokens
      obtain ⟨again, rest, hagain, hrest, hslot⟩ :=
        slot_of_item hsound.2 (item_of_lexemes body) _ _ hmiddle
      refine ⟨.conditional head again, rest, ?_, hrest, .conditional hderives hslot⟩
      rw [Phrase.unplaced, Phrase.unplaced, hhead, hagain]
  | .alternative condition body alternate, hsound => by
      intro tokens others htokens
      obtain ⟨hcondition, hbody, hnearest, halternate⟩ := hsound
      rw [Phrase.lexemes, List.cons_append, List.append_assoc, List.append_assoc] at htokens
      obtain ⟨head, middle, hhead, hmiddle, hderives⟩ := head_of_lexemes hcondition htokens
      obtain ⟨again, behind, hagain, hbehind, hslot⟩ :=
        slot_of_item hbody (item_of_lexemes body) _ _ hmiddle
      obtain ⟨elseLine, after, rfl, hafter⟩ := cons_of_map_lexeme hbehind
      obtain ⟨other, rest, hother, hrest, hotherSlot⟩ :=
        slot_of_item halternate (item_of_lexemes alternate) _ _ hafter
      have hopen : again.openIfs = 0 := by
        rw [← Phrase.openIfs_unplaced, hagain, Phrase.openIfs_unplaced, hnearest]
      refine ⟨.alternative head again other, rest, ?_, hrest,
        .alternative hderives hslot hopen (.mk elseLine after) hotherSlot⟩
      rw [Phrase.unplaced, Phrase.unplaced, hhead, hagain, hother]

theorem items_of_lexemes : (phrases : List Phrase) → (hsound : Phrase.AllSound phrases) →
    {tokens : List Token} → {others : List Lexeme} →
      (htokens : tokens.map Token.lexeme = Phrase.allLexemes phrases ++ others) →
        ∃ (again : List Phrase) (rest : List Token),
          Phrase.allUnplaced again = Phrase.allUnplaced phrases ∧
            rest.map Token.lexeme = others ∧ Items tokens again rest
  | [], _, tokens, others, htokens => ⟨[], tokens, rfl, htokens, .nil tokens⟩
  | first :: phrases, hsound, tokens, others, htokens => by
      rw [Phrase.allLexemes, List.append_assoc] at htokens
      obtain ⟨again, middle, hagain, hmiddle, hfirst⟩ := item_of_lexemes first hsound.1 _ _ htokens
      obtain ⟨others, rest, hothers, hrest, hitems⟩ := items_of_lexemes phrases hsound.2 hmiddle
      refine ⟨again :: others, rest, ?_, hrest, .cons hfirst hitems⟩
      rw [Phrase.allUnplaced, Phrase.allUnplaced, hagain, hothers]

end

end Grammar

end SignalScript
