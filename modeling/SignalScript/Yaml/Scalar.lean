import SignalScript.Text.Digits
import SignalScript.Yaml.Cursor

/-!
# YAML scalars

A scalar is a text, plain or between quotes.  It may go on over several lines;
a line break within it is read as a space, and of several breaks in a row the
first one is dropped.
-/

namespace SignalScript.Yaml

structure Scalar where
  text : String
  /-- Whether it stood without quotes; only then it can be other than text. -/
  isPlain : Bool
  deriving DecidableEq, Repr, Inhabited

/-- The scalar of a value that is left out. -/
def Scalar.omitted : Scalar := ⟨"", true⟩

/-! ## Blanks within a scalar -/

/-- Blanks and line breaks between two parts of a scalar. -/
inductive Gap where
  /-- Blanks within one line. -/
  | blanks (text : String)
  /-- Line breaks: the first, unless it was escaped, and the others. -/
  | breaks (first : Option Char) (others : String)
  deriving DecidableEq, Repr, Inhabited

namespace Gap

def none : Gap := .blanks ""

def isNone (gap : Gap) : Bool := gap == none

def crossesLine : Gap → Bool
  | .blanks _ => false
  | .breaks _ _ => true

/-- The gap with one more blank or break.  Blanks around breaks are dropped. -/
def add (gap : Gap) (c : Char) : Gap :=
  match gap with
  | .blanks text => if isBreak c then .breaks (some c) "" else .blanks (text.push c)
  | .breaks first others => if isBreak c then .breaks first (others.push c) else gap

/-- What the gap is read as. -/
def text : Gap → String
  | .blanks text => text
  | .breaks (some '\n') others => if others.isEmpty then " " else others
  | .breaks (some first) others => first.toString ++ others
  | .breaks .none others => others

end Gap

/-- A scalar and the place behind it. -/
structure Scanned where
  scalar : Scalar
  cursor : Cursor
  /-- Whether a line break was passed on the way from its last character. -/
  crossedLine : Bool
  deriving DecidableEq, Repr, Inhabited

/-! ## Quoted scalars -/

/-- Reads on between single quotes, where a quote is written twice. -/
def singleQuoted (text : String) (gap : Gap) (cursor : Cursor) : List Char → Option Scanned
  | [] => none
  | '\'' :: '\'' :: rest =>
    singleQuoted ((text ++ gap.text).push '\'') .none
      ((cursor.pass '\'' rest).pass '\'' rest) rest
  | c :: rest =>
    let next := cursor.pass c rest
    if { cursor with rest := c :: rest }.atAnyMarker then none
    else if c = '\'' then some ⟨⟨text ++ gap.text, false⟩, next, false⟩
    else if isBlank c || isBreak c then singleQuoted text (gap.add c) next rest
    else singleQuoted ((text ++ gap.text).push c) .none next rest

/-- The character that an escape of one letter stands for. -/
def escapedChar? (c : Char) : Option Char :=
  match c with
  | '0' => some '\x00'
  | 'a' => some '\x07'
  | 'b' => some '\x08'
  | 't' | '\t' => some '\t'
  | 'n' => some '\n'
  | 'v' => some '\x0b'
  | 'f' => some '\x0c'
  | 'r' => some '\r'
  | 'e' => some '\x1b'
  | ' ' => some ' '
  | '"' => some '"'
  | '/' => some '/'
  | '\\' => some '\\'
  | 'N' => some '\x85'
  | '_' => some '\xa0'
  | 'L' => some '\u2028'
  | 'P' => some '\u2029'
  | _ => none

/-- The number of digits of a numeric escape. -/
def escapeDigits? (c : Char) : Option Nat :=
  match c with
  | 'x' => some 2
  | 'u' => some 4
  | 'U' => some 8
  | _ => none

/-- The character with a code point. -/
def charOfCode? (code : Nat) : Option Char :=
  if code.isValidChar then some (Char.ofNat code) else none

/-- Where the reader is between double quotes. -/
inductive QuoteMode where
  | text
  /-- After a backslash. -/
  | escape
  /-- In a numeric escape with digits left. -/
  | digits (left : Nat) (value : Nat)
  deriving DecidableEq, Repr, Inhabited

/-- Reads on between double quotes, where a backslash begins an escape. -/
def doubleQuoted (mode : QuoteMode) (text : String) (gap : Gap) (cursor : Cursor) :
    List Char → Option Scanned
  | [] => none
  | c :: rest =>
    let next := cursor.pass c rest
    match mode with
    | .text =>
      if { cursor with rest := c :: rest }.atAnyMarker then none
      else if c = '"' then some ⟨⟨text ++ gap.text, false⟩, next, false⟩
      else if isBlank c || isBreak c then doubleQuoted .text text (gap.add c) next rest
      else if c = '\\' then doubleQuoted .escape (text ++ gap.text) .none next rest
      else doubleQuoted .text ((text ++ gap.text).push c) .none next rest
    | .escape =>
      if isBreak c then
        doubleQuoted .text text (.breaks .none "") next rest
      else
        match escapedChar? c, escapeDigits? c with
        | some meant, _ => doubleQuoted .text (text.push meant) .none next rest
        | _, some count => doubleQuoted (.digits count 0) text .none next rest
        | _, _ => none
    | .digits left value =>
      match Text.digit? 16 c with
      | none => none
      | some digit =>
        let code := 16 * value + digit
        if left ≤ 1 then
          match charOfCode? code with
          | none => none
          | some meant => doubleQuoted .text (text.push meant) .none next rest
        else
          doubleQuoted (.digits (left - 1) code) text .none next rest

/-! ## Plain scalars -/

/-- The characters that are separators or brackets in flow style. -/
def flowIndicators : List Char := [',', '[', ']', '\x7b', '\x7d']

/-- The characters that no plain scalar begins with, `-`, `?` and `:` apart. -/
def leadingIndicators : List Char :=
  [',', '[', ']', '\x7b', '\x7d', '#', '&', '*', '!', '|', '>', '\'', '"', '%', '@', '\x60']

/-- Whether a plain scalar begins here. -/
def beginsPlain (inFlow : Bool) : List Char → Bool
  | [] => false
  | c :: rest =>
    if isBlank c || isBreak c then false
    else if c = '-' then !endsIndicator rest
    else if c = '?' ∨ c = ':' then !inFlow && !endsIndicator rest
    else c ∉ leadingIndicators

/-- Whether a plain scalar ends before a colon or, in flow style, a separator. -/
def endsPlain (inFlow : Bool) (c : Char) (rest : List Char) : Bool :=
  (c == ':' && endsIndicator rest) || (inFlow && c ∈ flowIndicators)

/-- Whether a colon stands before a character of flow style that it cannot
stand before. -/
def isStrayColon (inFlow : Bool) (c : Char) (rest : List Char) : Bool :=
  inFlow && c == ':' && rest.head?.any fun next => next == '?' || next ∈ flowIndicators

/-- Reads on in a plain scalar.  Its later lines begin at column `indent` or
behind it, except in flow style. -/
def plain (inFlow : Bool) (indent : Nat) (text : String) (gap : Gap) (cursor : Cursor) :
    List Char → Option Scanned
  | [] => some ⟨⟨text, true⟩, { cursor with rest := [] }, gap.crossesLine⟩
  | c :: rest =>
    let here := { cursor with rest := c :: rest }
    let next := cursor.pass c rest
    if isBlank c || isBreak c then
      if gap.crossesLine && c == '\t' && cursor.column < indent then none
      else plain inFlow indent text (gap.add c) next rest
    else if here.atAnyMarker || (!gap.isNone && c == '#') ||
        (gap.crossesLine && !inFlow && cursor.column < indent) then
      some ⟨⟨text, true⟩, here, gap.crossesLine⟩
    else if isStrayColon inFlow c rest then none
    else if endsPlain inFlow c rest then some ⟨⟨text, true⟩, here, gap.crossesLine⟩
    else plain inFlow indent ((text ++ gap.text).push c) .none next rest

/-! ## All scalars -/

/-- Reads the scalar that begins here; none if what begins here is no scalar. -/
def scalar? (inFlow : Bool) (indent : Nat) (cursor : Cursor) : Option Scanned :=
  if cursor.atAnyMarker then none
  else
    match cursor.rest with
    | '\'' :: rest => singleQuoted "" .none (cursor.pass '\'' rest) rest
    | '"' :: rest => doubleQuoted .text "" .none (cursor.pass '"' rest) rest
    | rest => if beginsPlain inFlow rest then plain inFlow indent "" .none cursor rest else none

end SignalScript.Yaml
