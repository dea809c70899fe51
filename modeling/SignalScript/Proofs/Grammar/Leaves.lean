import SignalScript.Proofs.Grammar.Derivation
import SignalScript.Proofs.Tree.Preorder

/-!
# The nodes of a derivation account for its tokens

Every token that a derivation reads is accounted for by the nodes of its phrases, and in
order: a value or an operator becomes a leaf, a pair of brackets an enclosure, a pair of
braces a block, an `IF` a conditional, and an `ELSE` makes one of them complete.
-/

namespace SignalScript

/-- The leaf that a token becomes, with its line. -/
def Token.leaf? (token : Token) : Option (NodeKind × Nat) :=
  match token.kind with
  | .operator => some (.operator token.text, token.line)
  | .value =>
    if token.text = "IF" ∨ token.text = "ELSE" then none
    else if token.text ∈ operatorWords then some (.operator token.text, token.line)
    else some (.value token.text, token.line)
  | _ => none

/-- Whether nodes of a kind are conditionals that have all their parts. -/
def NodeKind.isCompleteConditional (kind : NodeKind) : Bool :=
  kind.conditional?.any fun state => state.phase = .complete

/-- Whether nodes account for tokens: the leaves are the values and operators in their
order, and there are as many other nodes as there are tokens that call for one. -/
structure Accounts (labels : List (NodeKind × Nat)) (tokens : List Token) : Prop where
  leaves : labels.filter (fun label => label.1.isLeaf) = tokens.filterMap Token.leaf?
  bracketOpen : labels.countP (fun label => label.1 = .enclosure) =
    tokens.countP fun token => token.kind = .bracketOpen
  bracketClose : labels.countP (fun label => label.1 = .enclosure) =
    tokens.countP fun token => token.kind = .bracketClose
  blockOpen : labels.countP (fun label => label.1 = .block) =
    tokens.countP fun token => token.kind = .blockOpen
  blockClose : labels.countP (fun label => label.1 = .block) =
    tokens.countP fun token => token.kind = .blockClose
  ifWord : labels.countP (fun label => label.1.isConditional) =
    tokens.countP fun token => token.lexeme = ⟨.value, "IF"⟩
  elseWord : labels.countP (fun label => label.1.isCompleteConditional) =
    tokens.countP fun token => token.lexeme = ⟨.value, "ELSE"⟩

namespace Accounts

variable {labels others : List (NodeKind × Nat)} {tokens more : List Token}

theorem nil : Accounts [] [] := by
  constructor <;> rfl

theorem append (hfirst : Accounts labels tokens) (hrest : Accounts others more) :
    Accounts (labels ++ others) (tokens ++ more) := by
  constructor
  case leaves => simp only [List.filter_append, List.filterMap_append, hfirst.leaves, hrest.leaves]
  case bracketOpen => simp only [List.countP_append, hfirst.bracketOpen, hrest.bracketOpen]
  case bracketClose => simp only [List.countP_append, hfirst.bracketClose, hrest.bracketClose]
  case blockOpen => simp only [List.countP_append, hfirst.blockOpen, hrest.blockOpen]
  case blockClose => simp only [List.countP_append, hfirst.blockClose, hrest.blockClose]
  case ifWord => simp only [List.countP_append, hfirst.ifWord, hrest.ifWord]
  case elseWord => simp only [List.countP_append, hfirst.elseWord, hrest.elseWord]

theorem statementEnd (text : String) (line : Nat) : Accounts [] [⟨.statementEnd, text, line⟩] := by
  constructor <;> rfl

theorem statement (line : Nat) : Accounts [(.statement, line)] [] := by
  constructor <;> rfl

theorem leaf {token : Token} {expr : Expr} (hleaf : Grammar.Leaf token expr) :
    Accounts expr.branch.labels [token] := by
  cases hleaf with
  | value text line hkeyword hoperator =>
      simp only [keywords, List.mem_cons, List.not_mem_nil, or_false, not_or] at hkeyword
      obtain ⟨hif, helse, -, -⟩ := hkeyword
      constructor <;> simp [Expr.branch, Branch.labels, Branch.forestLabels, NodeKind.isLeaf,
        NodeKind.isConditional, NodeKind.isCompleteConditional, NodeKind.conditional?,
        Token.leaf?, Token.lexeme, hif, helse, hoperator]
  | word text line hoperator =>
      have hwords : text ≠ "IF" ∧ text ≠ "ELSE" := by
        constructor
        · rintro rfl
          revert hoperator
          decide
        · rintro rfl
          revert hoperator
          decide
      constructor <;> simp [Expr.branch, Branch.labels, Branch.forestLabels, NodeKind.isLeaf,
        NodeKind.isConditional, NodeKind.isCompleteConditional, NodeKind.conditional?,
        Token.leaf?, Token.lexeme, hwords, hoperator]
  | operator text line =>
      constructor <;> rfl

/-- A pair of brackets around what is accounted for. -/
theorem enclosure (haccounts : Accounts labels tokens) (opened closed : String)
    (line closedLine : Nat) :
    Accounts ((.enclosure, line) :: labels)
      (⟨.bracketOpen, opened, line⟩ :: (tokens ++ [⟨.bracketClose, closed, closedLine⟩])) := by
  constructor
  case leaves => simpa [NodeKind.isLeaf, Token.leaf?, List.filterMap_cons] using haccounts.leaves
  case bracketOpen => simpa using haccounts.bracketOpen
  case bracketClose => simpa using haccounts.bracketClose
  case blockOpen => simpa using haccounts.blockOpen
  case blockClose => simpa using haccounts.blockClose
  case ifWord => simpa [NodeKind.isConditional, Token.lexeme] using haccounts.ifWord
  case elseWord =>
    simpa [NodeKind.isCompleteConditional, NodeKind.conditional?, Token.lexeme]
      using haccounts.elseWord

/-- A pair of braces around what is accounted for. -/
theorem block (haccounts : Accounts labels tokens) (opened closed : String)
    (line closedLine : Nat) :
    Accounts ((.block, line) :: labels)
      (⟨.blockOpen, opened, line⟩ :: (tokens ++ [⟨.blockClose, closed, closedLine⟩])) := by
  constructor
  case leaves => simpa [NodeKind.isLeaf, Token.leaf?, List.filterMap_cons] using haccounts.leaves
  case bracketOpen => simpa using haccounts.bracketOpen
  case bracketClose => simpa using haccounts.bracketClose
  case blockOpen => simpa using haccounts.blockOpen
  case blockClose => simpa using haccounts.blockClose
  case ifWord => simpa [NodeKind.isConditional, Token.lexeme] using haccounts.ifWord
  case elseWord =>
    simpa [NodeKind.isCompleteConditional, NodeKind.conditional?, Token.lexeme]
      using haccounts.elseWord

/-- An `IF` before what is accounted for. -/
theorem conditional (haccounts : Accounts labels tokens) (isAlternate : Bool) (line : Nat) :
    Accounts ((.conditional ⟨.bodyComplete, isAlternate⟩, line) :: labels)
      (⟨.value, "IF", line⟩ :: tokens) := by
  constructor
  case leaves => simpa [NodeKind.isLeaf, Token.leaf?, List.filterMap_cons] using haccounts.leaves
  case bracketOpen => simpa using haccounts.bracketOpen
  case bracketClose => simpa using haccounts.bracketClose
  case blockOpen => simpa using haccounts.blockOpen
  case blockClose => simpa using haccounts.blockClose
  case ifWord => simpa [NodeKind.isConditional, Token.lexeme] using haccounts.ifWord
  case elseWord =>
    simpa [NodeKind.isCompleteConditional, NodeKind.conditional?, Token.lexeme]
      using haccounts.elseWord

/-- An `IF` before what is accounted for, and an `ELSE` in it. -/
theorem alternative (hfirst : Accounts labels tokens) (hrest : Accounts others more)
    (isAlternate : Bool) (line elseLine : Nat) :
    Accounts ((.conditional ⟨.complete, isAlternate⟩, line) :: (labels ++ others))
      (⟨.value, "IF", line⟩ :: (tokens ++ ⟨.value, "ELSE", elseLine⟩ :: more)) := by
  have hboth := hfirst.append hrest
  constructor
  case leaves => simpa [NodeKind.isLeaf, Token.leaf?, List.filterMap_cons] using hboth.leaves
  case bracketOpen => simpa using hboth.bracketOpen
  case bracketClose => simpa using hboth.bracketClose
  case blockOpen => simpa using hboth.blockOpen
  case blockClose => simpa using hboth.blockClose
  case ifWord =>
    calc _ = (labels ++ others).countP (fun label => label.1.isConditional) + 1 :=
          List.countP_cons_of_pos rfl
      _ = (tokens ++ more).countP (fun token => token.lexeme = ⟨.value, "IF"⟩) + 1 := by
          rw [hboth.ifWord]
      _ = _ := by simp [Token.lexeme]
  case elseWord =>
    calc _ = (labels ++ others).countP (fun label => label.1.isCompleteConditional) + 1 :=
          List.countP_cons_of_pos rfl
      _ = (tokens ++ more).countP (fun token => token.lexeme = ⟨.value, "ELSE"⟩) + 1 := by
          rw [hboth.elseWord]
      _ = _ := by simp [Token.lexeme, Nat.add_assoc]

end Accounts

namespace Grammar

open Branch

/-- Whether tokens are those that labels account for, and a rest. -/
def Accounted (labels : List (NodeKind × Nat)) (tokens rest : List Token) : Prop :=
  ∃ read, tokens = read ++ rest ∧ Accounts labels read

namespace Accounted

variable {labels others : List (NodeKind × Nat)} {tokens middle rest : List Token}

theorem trans (hfirst : Accounted labels tokens middle) (hrest : Accounted others middle rest) :
    Accounted (labels ++ others) tokens rest := by
  obtain ⟨first, rfl, hlabels⟩ := hfirst
  obtain ⟨second, rfl, hothers⟩ := hrest
  exact ⟨first ++ second, (List.append_assoc _ _ _).symm, hlabels.append hothers⟩

theorem single {token : Token} (haccounts : Accounts labels [token]) :
    Accounted labels (token :: rest) rest :=
  ⟨[token], rfl, haccounts⟩

theorem statement (hparts : Accounted labels tokens rest) (line : Nat) :
    Accounted ((.statement, line) :: labels) tokens rest :=
  trans ⟨[], rfl, .statement line⟩ hparts

end Accounted

theorem accounted_exprs {tokens rest : List Token} {exprs : List Expr}
    (hexprs : Exprs tokens exprs rest) :
    Accounted (forestLabels (Expr.branches exprs)) tokens rest := by
  induction hexprs with
  | nil rest => exact ⟨[], rfl, .nil⟩
  | leaf first others ih => exact Accounted.trans (.single (.leaf first)) ih
  | @enclosure _ _ _ _ _ opened closed line closedLine inside others ihInside ihOthers =>
      obtain ⟨inner, rfl, hinner⟩ := ihInside
      have henclosure := hinner.enclosure opened closed line closedLine
      exact Accounted.trans ⟨_, by simp, henclosure⟩ ihOthers

theorem accounted_head {tokens rest : List Token} {condition : Condition}
    (hhead : Head tokens condition rest) :
    ∃ after, tokens = ⟨.value, "IF", condition.line⟩ :: after ∧
      Accounted condition.branch.labels after rest := by
  cases hhead with
  | @mk tokens rest exprs opened closed line bracketLine closedLine inside =>
    obtain ⟨inner, rfl, hinner⟩ := accounted_exprs inside
    have henclosure := hinner.enclosure opened closed bracketLine closedLine
    exact ⟨_, rfl, _, by simp, henclosure⟩

theorem accounted_else {tokens rest : List Token} (helse : Else tokens rest) :
    ∃ line, Accounted [] tokens (⟨.value, "ELSE", line⟩ :: rest) := by
  induction helse with
  | mk line rest => exact ⟨line, [], rfl, .nil⟩
  | @stray _ _ text line others ih =>
      obtain ⟨elseLine, hread⟩ := ih
      exact ⟨elseLine, Accounted.trans (.single (.statementEnd text line)) hread⟩

mutual

/-- The nodes of phrases account for the tokens that they are derived from. -/
theorem accounted_items : {tokens : List Token} → {phrases : List Phrase} →
    {rest : List Token} → (hitems : Items tokens phrases rest) →
      Accounted (forestLabels (Phrase.branches phrases)) tokens rest
  | _, _, _, .nil rest => ⟨[], rfl, .nil⟩
  | _, _, _, .empty others =>
      Accounted.trans (.single (.statementEnd _ _)) (accounted_items others)
  | _, _, _, .cons whole others => (accounted_item whole false).trans (accounted_items others)

private theorem accounted_item : {tokens : List Token} → {phrase : Phrase} →
    {rest : List Token} → (hitem : Item tokens phrase rest) → (isAlternate : Bool) →
      Accounted (phrase.branch isAlternate).labels tokens rest
  | _, _, _, .statement parts, _ => by
      have hwhole := (accounted_exprs parts).trans (.single (.statementEnd _ _))
      rw [List.append_nil] at hwhole
      exact hwhole.statement _
  | _, _, _, @Item.block _ _ _ opened closed line closedLine inside, _ => by
      obtain ⟨inner, rfl, hinner⟩ := accounted_items inside
      exact ⟨_, by simp, hinner.block opened closed line closedLine⟩
  | _, _, _, @Item.conditional _ _ _ condition _ head slot, isAlternate => by
      obtain ⟨after, rfl, hhead⟩ := accounted_head head
      obtain ⟨read, rfl, haccounts⟩ := hhead.trans (accounted_slot slot false)
      have hwhole := haccounts.conditional isAlternate condition.line
      refine ⟨⟨.value, "IF", condition.line⟩ :: read, rfl, ?_⟩
      simpa [Phrase.branch, labels, forestLabels] using hwhole
  | _, _, _, @Item.alternative _ _ _ _ _ condition _ _ head slot _ word other, isAlternate => by
      obtain ⟨after, rfl, hhead⟩ := accounted_head head
      obtain ⟨elseLine, helse⟩ := accounted_else word
      obtain ⟨alternate, rfl, halternate⟩ := accounted_slot other true
      obtain ⟨read, rfl, haccounts⟩ := (hhead.trans (accounted_slot slot false)).trans helse
      have hwhole := haccounts.alternative halternate isAlternate condition.line elseLine
      refine ⟨⟨.value, "IF", condition.line⟩ ::
        (read ++ ⟨.value, "ELSE", elseLine⟩ :: alternate), by simp, ?_⟩
      simpa [Phrase.branch, labels, forestLabels] using hwhole

private theorem accounted_slot : {tokens : List Token} → {phrase : Phrase} →
    {rest : List Token} → (hslot : Slot tokens phrase rest) → (isAlternate : Bool) →
      Accounted (phrase.branch isAlternate).labels tokens rest
  | _, _, _, .empty text line rest, _ =>
      Accounted.statement (.single (.statementEnd text line)) line
  | _, _, _, .item whole, isAlternate => accounted_item whole isAlternate
  | _, _, _, .beforeElse parts, _ => (accounted_exprs parts).statement _

end

/-- A derivation without a rest. -/
theorem Items.accounts {tokens : List Token} {phrases : List Phrase}
    (hitems : Items tokens phrases []) :
    Accounts (forestLabels (Phrase.branches phrases)) tokens := by
  obtain ⟨read, rfl, haccounts⟩ := accounted_items hitems
  rwa [List.append_nil]

end Grammar

/-! ## Blanks -/

private theorem countP_filter_blank {property : Token → Bool}
    (hkind : ∀ token, property token = true → token.isBlank = false) (tokens : List Token) :
    (tokens.filter fun token => !token.isBlank).countP property = tokens.countP property := by
  rw [List.countP_filter]
  apply List.countP_congr
  intro token _
  cases htoken : property token with
  | true => simp [hkind token htoken]
  | false => simp

private theorem filterMap_leaf?_filter (tokens : List Token) :
    (tokens.filter fun token => !token.isBlank).filterMap Token.leaf? =
      tokens.filterMap Token.leaf? := by
  rw [List.filterMap_filter]
  congr
  funext token
  cases hkind : token.kind <;> simp [Token.leaf?, Token.isBlank, hkind]

/-- Blanks need not be accounted for. -/
theorem Accounts.of_filter {labels : List (NodeKind × Nat)} {tokens : List Token}
    (haccounts : Accounts labels (tokens.filter fun token => !token.isBlank)) :
    Accounts labels tokens := by
  have hword : ∀ (text : String) (token : Token),
      decide (token.lexeme = ⟨.value, text⟩) = true → token.isBlank = false := by
    intro text token htoken
    have hkind : token.kind = .value := congrArg Lexeme.kind (of_decide_eq_true htoken)
    rw [Token.isBlank, hkind]
  constructor
  case leaves => exact haccounts.leaves.trans (filterMap_leaf?_filter tokens)
  case ifWord => exact haccounts.ifWord.trans (countP_filter_blank (hword "IF") tokens)
  case elseWord => exact haccounts.elseWord.trans (countP_filter_blank (hword "ELSE") tokens)
  case bracketOpen =>
    apply haccounts.bracketOpen.trans (countP_filter_blank _ tokens)
    intro token hkind
    rw [Token.isBlank, of_decide_eq_true hkind]
  case bracketClose =>
    apply haccounts.bracketClose.trans (countP_filter_blank _ tokens)
    intro token hkind
    rw [Token.isBlank, of_decide_eq_true hkind]
  case blockOpen =>
    apply haccounts.blockOpen.trans (countP_filter_blank _ tokens)
    intro token hkind
    rw [Token.isBlank, of_decide_eq_true hkind]
  case blockClose =>
    apply haccounts.blockClose.trans (countP_filter_blank _ tokens)
    intro token hkind
    rw [Token.isBlank, of_decide_eq_true hkind]

end SignalScript
