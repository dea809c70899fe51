import SignalScript.Assembler
import SignalScript.Proofs.Grammar.Phrase

/-!
# The grammar of scripts

What a script may hold after its name, as a grammar over its tokens without
blanks:

* items = (`;` | stmt | block | cond)*
* stmt = expr+ `;`
* expr = value | operator | `(` expr* `)`
* block = `{` items `}`
* cond = `IF` `(` expr* `)` slot [`;`* `ELSE` slot]
* slot = `;` | stmt | block | cond | expr+ directly before an `ELSE`

Every relation below reads tokens from the left: it relates the tokens to what
they mean and to the tokens left over.  An `ELSE` belongs to the nearest `IF`
before it outside of braces that has none yet, so the body of an alternative
holds no `IF` that could have taken it.
-/

namespace SignalScript

/-- Whether a token has no meaning after the name of a script. -/
def Token.isBlank (token : Token) : Bool :=
  match token.kind with
  | .separator | .tab | .comma | .lineEnd => true
  | _ => false

/-- The values that are no part of an expression. -/
def keywords : List String :=
  ["IF", "ELSE", "REM", "SCRIPT"]

namespace Grammar

/-- value | operator -/
inductive Leaf : Token → Expr → Prop
  | value (text : String) (line : Nat) (hkeyword : text ∉ keywords)
      (hoperator : text ∉ operatorWords) : Leaf ⟨.value, text, line⟩ (.value line text)
  | word (text : String) (line : Nat) (hoperator : text ∈ operatorWords) :
      Leaf ⟨.value, text, line⟩ (.operator line text)
  | operator (text : String) (line : Nat) : Leaf ⟨.operator, text, line⟩ (.operator line text)

/-- expr* -/
inductive Exprs : List Token → List Expr → List Token → Prop
  | nil (rest : List Token) : Exprs rest [] rest
  | leaf {token : Token} {tokens rest : List Token} {expr : Expr} {exprs : List Expr}
      (first : Leaf token expr) (others : Exprs tokens exprs rest) :
      Exprs (token :: tokens) (expr :: exprs) rest
  | enclosure {tokens middle rest : List Token} {inner exprs : List Expr} {opened closed : String}
      {line closedLine : Nat}
      (inside : Exprs tokens inner (⟨.bracketClose, closed, closedLine⟩ :: middle))
      (others : Exprs middle exprs rest) :
      Exprs (⟨.bracketOpen, opened, line⟩ :: tokens) (.enclosure line inner :: exprs) rest

/-- A token that an expression begins with. -/
inductive Begins : Token → Prop
  | leaf {token : Token} {expr : Expr} (first : Leaf token expr) : Begins token
  | bracketOpen (text : String) (line : Nat) : Begins ⟨.bracketOpen, text, line⟩

/-- `IF` `(` expr* `)` -/
inductive Head : List Token → Condition → List Token → Prop
  | mk {tokens rest : List Token} {exprs : List Expr} {opened closed : String}
      {line bracketLine closedLine : Nat}
      (inside : Exprs tokens exprs (⟨.bracketClose, closed, closedLine⟩ :: rest)) :
      Head (⟨.value, "IF", line⟩ :: ⟨.bracketOpen, opened, bracketLine⟩ :: tokens)
        ⟨line, bracketLine, exprs⟩ rest

/-- `;`* `ELSE` -/
inductive Else : List Token → List Token → Prop
  | mk (line : Nat) (rest : List Token) : Else (⟨.value, "ELSE", line⟩ :: rest) rest
  | stray {tokens rest : List Token} {text : String} {line : Nat} (others : Else tokens rest) :
      Else (⟨.statementEnd, text, line⟩ :: tokens) rest

mutual

inductive Items : List Token → List Phrase → List Token → Prop
  | nil (rest : List Token) : Items rest [] rest
  | empty {tokens rest : List Token} {phrases : List Phrase} {text : String} {line : Nat}
      (others : Items tokens phrases rest) :
      Items (⟨.statementEnd, text, line⟩ :: tokens) phrases rest
  | cons {tokens middle rest : List Token} {phrase : Phrase} {phrases : List Phrase}
      (first : Item tokens phrase middle) (others : Items middle phrases rest) :
      Items tokens (phrase :: phrases) rest

/-- stmt | block | cond -/
inductive Item : List Token → Phrase → List Token → Prop
  | statement {tokens rest : List Token} {first : Expr} {exprs : List Expr} {text : String}
      {line : Nat} (parts : Exprs tokens (first :: exprs) (⟨.statementEnd, text, line⟩ :: rest)) :
      Item tokens (.statement first.line (first :: exprs)) rest
  | block {tokens rest : List Token} {phrases : List Phrase} {opened closed : String}
      {line closedLine : Nat}
      (inside : Items tokens phrases (⟨.blockClose, closed, closedLine⟩ :: rest)) :
      Item (⟨.blockOpen, opened, line⟩ :: tokens) (.block line phrases) rest
  | conditional {tokens middle rest : List Token} {condition : Condition} {body : Phrase}
      (head : Head tokens condition middle) (slot : Slot middle body rest) :
      Item tokens (.conditional condition body) rest
  | alternative {tokens middle behind after rest : List Token} {condition : Condition}
      {body alternate : Phrase} (head : Head tokens condition middle)
      (slot : Slot middle body behind) (hnearest : body.openIfs = 0) (word : Else behind after)
      (other : Slot after alternate rest) :
      Item tokens (.alternative condition body alternate) rest

inductive Slot : List Token → Phrase → List Token → Prop
  | empty (text : String) (line : Nat) (rest : List Token) :
      Slot (⟨.statementEnd, text, line⟩ :: rest) (.statement line []) rest
  | item {tokens rest : List Token} {phrase : Phrase} (whole : Item tokens phrase rest) :
      Slot tokens phrase rest
  | beforeElse {tokens rest : List Token} {first : Expr} {exprs : List Expr} {line : Nat}
      (parts : Exprs tokens (first :: exprs) (⟨.value, "ELSE", line⟩ :: rest)) :
      Slot tokens (.statement first.line (first :: exprs)) (⟨.value, "ELSE", line⟩ :: rest)

end

end Grammar

end SignalScript
