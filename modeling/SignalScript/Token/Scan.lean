import SignalScript.Text.Lines
import SignalScript.Text.UpperCase
import SignalScript.Token

/-!
# Scanning a line

A line is read one character at a time.  The scanner's mode holds the text of
the token being collected, or says that a comment is being skipped.

Punctuation stands alone.  Operator characters are collected as long as they
spell an operator of `compoundOperators`; two slashes, or a slash and a star,
met that way start a comment instead.  All other characters are upper-cased and
collected into a value.  Only one fact survives the end of a line: whether it
ended inside a block comment.
-/

namespace SignalScript

/-- The kind of a character that is a token of its own. -/
def TokenKind.ofPunctuation? (c : Char) : Option TokenKind :=
  match c with
  | ';' => some .statementEnd
  | '{' => some .blockOpen
  | '}' => some .blockClose
  | '(' => some .bracketOpen
  | ')' => some .bracketClose
  | '\t' => some .tab
  | ' ' => some .separator
  | ',' => some .comma
  | _ => none

/-- The characters that operators are spelled with. -/
def operatorChars : List Char :=
  ['|', '&', '^', '!', '+', '-', '%', '#', '<', '>', '=', '/', '*']

/-- The operators of more than one character.  Without its last character each
of them is again in this list, or a single operator character, so collecting
greedily finds the longest one. -/
def compoundOperators : List String :=
  ["||", "&&", "!=", "==", "<=", ">=", "==#", "!=#", "<=#", ">=#", "<#", ">#",
    "+=", "-=", "*=", "%=", "#=", "/=", "/#", "/#="]

namespace Scan

/-- What the scanner is in the middle of. -/
inductive Mode where
  /-- Collecting a value; with an empty text, between two tokens. -/
  | word (text : String)
  /-- Collecting an operator. -/
  | symbol (text : String)
  /-- In a comment that ends with the line. -/
  | lineComment
  /-- In a comment that ends with `*/`; `star` tells whether the last character
  was a star that may begin that end. -/
  | blockComment (star : Bool)
  deriving DecidableEq, Repr, Inhabited

/-- The mode between two tokens. -/
abbrev Mode.idle : Mode := .word ""

/-- The token collected so far, if there is one. -/
def Mode.flush : Mode → List Lexeme
  | .word text => if text = "" then [] else [⟨.value, text⟩]
  | .symbol text => [⟨.operator, text⟩]
  | .lineComment => []
  | .blockComment _ => []

/-- Reads a character that neither continues an operator nor belongs to a
comment. -/
def begin (mode : Mode) (c : Char) : List Lexeme × Mode :=
  match TokenKind.ofPunctuation? c with
  | some kind => (mode.flush ++ [⟨kind, c.toString⟩], .idle)
  | none =>
    if c ∈ operatorChars then
      (mode.flush, .symbol c.toString)
    else
      match mode with
      | .word text => ([], .word (text ++ String.ofList (Text.upperCase c)))
      | other => (other.flush, .word (String.ofList (Text.upperCase c)))

/-- Reads one character: the lexemes it finishes and the mode after it. -/
def step (mode : Mode) (c : Char) : List Lexeme × Mode :=
  match mode with
  | .lineComment => ([], .lineComment)
  | .blockComment star =>
    if star && c == '/' then ([], .idle) else ([], .blockComment (c == '*'))
  | .symbol text =>
    if text = "/" ∧ c = '/' then
      ([], .lineComment)
    else if text = "/" ∧ c = '*' then
      ([], .blockComment false)
    else if text.push c ∈ compoundOperators then
      ([], .symbol (text.push c))
    else
      begin (.symbol text) c
  | .word text => begin (.word text) c

/-- Reads characters one after the other. -/
def run (mode : Mode) : List Char → List Lexeme × Mode
  | [] => ([], mode)
  | c :: rest =>
    let (first, next) := step mode c
    let (others, last) := run next rest
    (first ++ others, last)

/-- The lexemes at the end of a line: what was still being collected, and a
line end if the line gave any lexeme at all. -/
def close (lexemes : List Lexeme) (mode : Mode) : List Lexeme :=
  match lexemes ++ mode.flush with
  | [] => []
  | found => found ++ [.lineEnd]

/-- The result of scanning one line. -/
structure LineScan where
  lexemes : List Lexeme
  /-- Whether the line ended inside a block comment. -/
  inComment : Bool
  deriving DecidableEq, Repr, Inhabited

/-- Scans one line.  `inComment` tells whether it begins inside a block
comment.  A line that ends inside one has no line end. -/
def line (inComment : Bool) (text : String) : LineScan :=
  let start := if inComment then .blockComment false else Mode.idle
  match run start (Text.dropReturn text.toList) with
  | (lexemes, .blockComment _) => ⟨lexemes, true⟩
  | (lexemes, mode) => ⟨close lexemes mode, false⟩

@[simp]
theorem run_nil (mode : Mode) : run mode [] = ([], mode) := rfl

theorem run_cons (mode : Mode) (c : Char) (rest : List Char) :
    run mode (c :: rest) =
      ((step mode c).1 ++ (run (step mode c).2 rest).1,
        (run (step mode c).2 rest).2) := rfl

/-- Scanning is compositional: the mode is all that the second part needs to
know of the first. -/
theorem run_append (mode : Mode) (left right : List Char) :
    run mode (left ++ right) =
      ((run mode left).1 ++ (run (run mode left).2 right).1,
        (run (run mode left).2 right).2) := by
  induction left generalizing mode with
  | nil => simp
  | cons c rest ih => simp [run_cons, ih]

end Scan

end SignalScript
