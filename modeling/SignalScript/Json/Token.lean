import SignalScript.Json
import SignalScript.Text.Digits

/-!
# Tokens of JSON text

JSON text is cut into brackets, separators and the values without parts:
literal names, numbers and strings.  Each token has one text that it is written
as; strings may be spelled in many ways when read.
-/

namespace SignalScript.Json

inductive Token where
  | arrayOpen
  | arrayClose
  | objectOpen
  | objectClose
  | colon
  | comma
  | null
  | bool (value : Bool)
  | integer (value : Int)
  | string (text : String)
  deriving DecidableEq, Inhabited, Repr

namespace Token

/-- The value that a token is by itself. -/
def value? : Token → Option Json
  | .null => some .null
  | .bool value => some (.bool value)
  | .integer value => some (.integer value)
  | .string text => some (.string text)
  | _ => none

/-- The token that a character is by itself. -/
def ofChar? (c : Char) : Option Token :=
  match c with
  | '[' => some .arrayOpen
  | ']' => some .arrayClose
  | '\x7b' => some .objectOpen
  | '\x7d' => some .objectClose
  | ':' => some .colon
  | ',' => some .comma
  | _ => none

/-- The blanks that may stand between tokens. -/
def isBlank (c : Char) : Bool :=
  c == ' ' || c == '\t' || c == '\n' || c == '\r'

/-! ## Writing -/

/-- How a character is written inside a string: the quote, the backslash and
control characters are escaped, all others stand for themselves. -/
def escape (c : Char) : List Char :=
  match c with
  | '"' => ['\\', '"']
  | '\\' => ['\\', '\\']
  | '\n' => ['\\', 'n']
  | '\r' => ['\\', 'r']
  | '\t' => ['\\', 't']
  | c =>
    if c.toNat < 0x20 then
      ['\\', 'u', '0', '0', Text.hexDigit (c.toNat / 16), Text.hexDigit (c.toNat % 16)]
    else
      [c]

/-- A string between quotes. -/
def quote (text : String) : String :=
  String.ofList ('"' :: text.toList.flatMap escape ++ ['"'])

/-- How a token is written. -/
def text : Token → String
  | .arrayOpen => "["
  | .arrayClose => "]"
  | .objectOpen => "\x7b"
  | .objectClose => "\x7d"
  | .colon => ":"
  | .comma => ","
  | .null => "null"
  | .bool true => "true"
  | .bool false => "false"
  | .integer value => toString value
  | .string text => quote text

/-! ## Reading -/

/-- An integer in decimal.  Zero has no sign. -/
def integer? : List Char → Option Int
  | '-' :: digits =>
    match Text.natural? digits with
    | some (n + 1) => some (Int.negSucc n)
    | _ => none
  | digits => (Text.natural? digits).map Int.ofNat

/-- The token that a run of characters outside a string spells. -/
def ofBare? (text : String) : Option Token :=
  match text with
  | "null" => some .null
  | "true" => some (.bool true)
  | "false" => some (.bool false)
  | other => (integer? other.toList).map .integer

/-- Where in the text the reader is. -/
inductive Mode where
  /-- Between two tokens. -/
  | between
  /-- In a run of characters outside a string. -/
  | bare (text : String)
  /-- In a string. -/
  | quoted (text : String)
  /-- After the backslash of an escape. -/
  | escaped (text : String)
  /-- In the four digits of a numeric escape; `count` are left, and `high` is a
  high surrogate read before. -/
  | unit (text : String) (high : Option Nat) (count : Nat) (value : Nat)
  /-- After a high surrogate, where only another numeric escape can stand. -/
  | pair (text : String) (high : Nat)
  /-- After a high surrogate and a backslash. -/
  | pairEscape (text : String) (high : Nat)
  deriving DecidableEq, Repr, Inhabited

/-- The character that an escape of one letter stands for. -/
def escapedChar? (c : Char) : Option Char :=
  match c with
  | '"' => some '"'
  | '\\' => some '\\'
  | '/' => some '/'
  | 'b' => some '\x08'
  | 'f' => some '\x0c'
  | 'n' => some '\n'
  | 'r' => some '\r'
  | 't' => some '\t'
  | _ => none

/-- The mode after the last digit of a numeric escape.  Surrogates stand only in
pairs, the high one first. -/
def unitDone (text : String) (high : Option Nat) (value : Nat) : Option Mode :=
  let isHigh := 0xD800 ≤ value && value ≤ 0xDBFF
  let isLow := 0xDC00 ≤ value && value ≤ 0xDFFF
  match high with
  | some first =>
    if isLow then
      some (.quoted (text.push (Char.ofNat
        (0x10000 + (first - 0xD800) * 0x400 + (value - 0xDC00)))))
    else
      none
  | none =>
    if isHigh then some (.pair text value)
    else if isLow then none
    else some (.quoted (text.push (Char.ofNat value)))

/-- Reads one character: the tokens it finishes, and the mode after it. -/
def step (mode : Mode) (c : Char) : Option (List Token × Mode) :=
  match mode with
  | .between =>
    if isBlank c then some ([], .between)
    else if c = '"' then some ([], .quoted "")
    else
      match ofChar? c with
      | some token => some ([token], .between)
      | none => some ([], .bare c.toString)
  | .bare text =>
    if isBlank c then do
      let token ← ofBare? text
      some ([token], .between)
    else if c = '"' then do
      let token ← ofBare? text
      some ([token], .quoted "")
    else
      match ofChar? c with
      | some next => do
        let token ← ofBare? text
        some ([token, next], .between)
      | none => some ([], .bare (text.push c))
  | .quoted text =>
    if c = '"' then some ([.string text], .between)
    else if c = '\\' then some ([], .escaped text)
    else if c.toNat < 0x20 then none
    else some ([], .quoted (text.push c))
  | .escaped text =>
    if c = 'u' then
      some ([], .unit text none 4 0)
    else do
      let meant ← escapedChar? c
      some ([], .quoted (text.push meant))
  | .unit text high count value => do
    let digit ← Text.digit? 16 c
    if count ≤ 1 then do
      let mode ← unitDone text high (16 * value + digit)
      some ([], mode)
    else
      some ([], .unit text high (count - 1) (16 * value + digit))
  | .pair text high =>
    if c = '\\' then some ([], .pairEscape text high) else none
  | .pairEscape text high =>
    if c = 'u' then some ([], .unit text (some high) 4 0) else none

/-- The tokens that are complete when the text ends. -/
def finish : Mode → Option (List Token)
  | .between => some []
  | .bare text => (ofBare? text).map ([·])
  | _ => none

/-- Cuts text into tokens, after `found` (in reverse) was found. -/
def scanFrom (mode : Mode) (found : List Token) : List Char → Option (List Token)
  | [] => (finish mode).map fun last => found.reverse ++ last
  | c :: rest =>
    match step mode c with
    | none => none
    | some (tokens, next) => scanFrom next (tokens.reverse ++ found) rest

/-- Cuts text into tokens; none if some part of it is no token. -/
def scan (text : String) : Option (List Token) :=
  scanFrom .between [] text.toList

end Token

end SignalScript.Json
