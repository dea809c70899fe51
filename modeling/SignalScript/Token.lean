/-!
# Tokens

What a signal script is cut into.  A lexeme is a piece of one line; a token is
a lexeme together with the number of the line it stands on.
-/

namespace SignalScript

inductive TokenKind where
  /-- A name, number or keyword. -/
  | value
  /-- An operator spelled with symbols. -/
  | operator
  | tab
  /-- The end of a line that held some other token. -/
  | lineEnd
  /-- A space. -/
  | separator
  | bracketOpen
  | bracketClose
  | comma
  | statementEnd
  | blockOpen
  | blockClose
  deriving DecidableEq, Repr, Inhabited

structure Lexeme where
  kind : TokenKind
  text : String
  deriving DecidableEq, Repr, Inhabited

structure Token where
  kind : TokenKind
  text : String
  line : Nat
  deriving DecidableEq, Repr, Inhabited

/-- The token that a lexeme is on a line. -/
def Lexeme.onLine (lexeme : Lexeme) (line : Nat) : Token :=
  ⟨lexeme.kind, lexeme.text, line⟩

/-- The token without its place. -/
def Token.lexeme (token : Token) : Lexeme :=
  ⟨token.kind, token.text⟩

@[simp]
theorem Lexeme.lexeme_onLine (lexeme : Lexeme) (line : Nat) :
    (lexeme.onLine line).lexeme = lexeme := rfl

/-- The lexeme that closes a line. -/
def Lexeme.lineEnd : Lexeme := ⟨.lineEnd, "\n"⟩

end SignalScript
