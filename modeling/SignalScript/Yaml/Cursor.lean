/-!
# Places in YAML text

A cursor is a place in a text: what follows it, and where it is.  Columns matter
in YAML, since the column that a line begins at says what it belongs to.
-/

namespace SignalScript.Yaml

/-- Blanks within a line. -/
def isBlank (c : Char) : Bool :=
  c == ' ' || c == '\t'

/-- Line breaks.  Carriage returns and next-line characters are line feeds by
the time a text is read. -/
def isBreak (c : Char) : Bool :=
  c == '\n' || c == '\u2028' || c == '\u2029'

/-- Whether a blank, a line break or the end comes next, as it must after an
indicator. -/
def endsIndicator : List Char → Bool
  | [] => true
  | c :: _ => isBlank c || isBreak c

/-- The characters that may occur in a text at all. -/
def isAllowed (c : Char) : Bool :=
  let code := c.toNat
  code == 0x9 || code == 0xA || code == 0xD || (0x20 ≤ code && code ≤ 0x7E) ||
    code == 0x85 || (0xA0 ≤ code && code ≤ 0xFFFD) || 0x10000 ≤ code

/-- The byte order mark.  At the start of a line, so also before the whole text,
it is passed over, but it takes up a column there. -/
def byteOrderMark : Char := '\ufeff'

/-- The text with every line break written as a line feed; the separators of
lines and paragraphs stay. -/
def normalizeBreaks : List Char → List Char
  | [] => []
  | '\r' :: '\n' :: rest => '\n' :: normalizeBreaks rest
  | c :: rest => (if c = '\r' ∨ c = '\x85' then '\n' else c) :: normalizeBreaks rest

structure Cursor where
  /-- The characters from here on. -/
  rest : List Char
  line : Nat := 0
  column : Nat := 0
  /-- The number of characters before this place. -/
  index : Nat := 0
  deriving DecidableEq, Repr, Inhabited

namespace Cursor

/-- The place behind a character that comes next. -/
def pass (cursor : Cursor) (c : Char) (rest : List Char) : Cursor :=
  if isBreak c then
    { rest, line := cursor.line + 1, column := 0, index := cursor.index + 1 }
  else
    { rest, line := cursor.line, column := cursor.column + 1, index := cursor.index + 1 }

/-- The place behind `count` characters of the same line. -/
def skip (cursor : Cursor) (count : Nat) : Cursor :=
  { rest := cursor.rest.drop count, line := cursor.line, column := cursor.column + count,
    index := cursor.index + count }

/-- Whether a document marker, `---` or `...`, is here.  Markers stand at the
start of a line. -/
def atMarker (cursor : Cursor) (dash : Char) : Bool :=
  cursor.column == 0 && cursor.rest.take 3 == [dash, dash, dash] &&
    endsIndicator (cursor.rest.drop 3)

def atStartMarker (cursor : Cursor) : Bool := cursor.atMarker '-'

def atEndMarker (cursor : Cursor) : Bool := cursor.atMarker '.'

def atAnyMarker (cursor : Cursor) : Bool := cursor.atStartMarker || cursor.atEndMarker

/-- Whether an indicator is here, with a blank or line end behind it. -/
def atIndicator (cursor : Cursor) (indicator : Char) : Bool :=
  cursor.rest.head? == some indicator && endsIndicator cursor.rest.tail

end Cursor

/-- Where a token begins. -/
structure Start where
  cursor : Cursor
  /-- Whether what begins here could be the key of a block mapping, with no
  other token before it on its line. -/
  keyAllowed : Bool
  deriving DecidableEq, Repr, Inhabited

/-- Passes over blanks, comments and line breaks; `inComment` tells whether the
place is in a comment.  Where a key of a block mapping could begin, tabs are not
passed over, as they do not indent. -/
def skipFrom (inFlow inComment keyAllowed : Bool) (cursor : Cursor) : List Char → Start
  | [] => ⟨{ cursor with rest := [] }, keyAllowed⟩
  | c :: rest =>
    let next := cursor.pass c rest
    if isBreak c then
      skipFrom inFlow false (keyAllowed || !inFlow) next rest
    else if inComment then
      skipFrom inFlow true keyAllowed next rest
    else if c = '#' then
      skipFrom inFlow true keyAllowed next rest
    else if c = ' ' ∨ (c = '\t' ∧ (inFlow ∨ ¬keyAllowed)) ∨
        (c = byteOrderMark ∧ cursor.column = 0) then
      skipFrom inFlow false keyAllowed next rest
    else
      ⟨{ cursor with rest := c :: rest }, keyAllowed⟩

/-- The next token's beginning in block style. -/
def nextInBlock (keyAllowed : Bool) (cursor : Cursor) : Start :=
  skipFrom false false keyAllowed cursor cursor.rest

/-- The next token's beginning in flow style, between braces. -/
def nextInFlow (cursor : Cursor) : Cursor :=
  (skipFrom true false false cursor cursor.rest).cursor

end SignalScript.Yaml
