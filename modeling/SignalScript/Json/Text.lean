import SignalScript.Json.Token

/-!
# JSON text

A value is written as the sequence of its tokens, without blanks.  Reading goes
the other way: text is cut into tokens, and the tokens are put together by a
machine that keeps the unfinished arrays and objects on a stack.
-/

namespace SignalScript.Json

/-! ## Writing -/

mutual

/-- The tokens that a value is written with. -/
def tokens : Json → List Token
  | .array [] => [.arrayOpen, .arrayClose]
  | .array (first :: rest) => .arrayOpen :: tokens first ++ itemTokens rest
  | .object [] => [.objectOpen, .objectClose]
  | .object ((key, first) :: rest) =>
    .objectOpen :: .string key :: .colon :: tokens first ++ fieldTokens rest
  | .null => [.null]
  | .bool value => [.bool value]
  | .integer value => [.integer value]
  | .string text => [.string text]

/-- The tokens of the items after the first one. -/
def itemTokens : List Json → List Token
  | [] => [.arrayClose]
  | item :: rest => .comma :: tokens item ++ itemTokens rest

/-- The tokens of the fields after the first one. -/
def fieldTokens : List (String × Json) → List Token
  | [] => [.objectClose]
  | (key, value) :: rest =>
    .comma :: .string key :: .colon :: tokens value ++ fieldTokens rest

end

/-- The text of a value, without blanks. -/
def compact (value : Json) : String :=
  String.join (value.tokens.map Token.text)

/-! ## Reading -/

/-- An array or object whose end has not been read.  What it holds so far is
kept in reverse. -/
inductive Frame where
  | array (items : List Json)
  /-- An object that waits for the value of a key. -/
  | object (fields : List (String × Json)) (key : String)
  deriving Inhabited, Repr

/-- What has been read, and so what may follow.  Every state holds the
unfinished arrays and objects around the place, innermost first. -/
inductive Reading where
  /-- A value must follow. -/
  | beforeValue (around : List Frame)
  /-- After the opening bracket of an array. -/
  | arrayStart (around : List Frame)
  /-- After the opening brace of an object. -/
  | objectStart (around : List Frame)
  /-- After a comma in an object. -/
  | beforeKey (around : List Frame) (fields : List (String × Json))
  /-- After a key. -/
  | afterKey (around : List Frame) (fields : List (String × Json)) (key : String)
  /-- After a whole value. -/
  | afterValue (around : List Frame) (value : Json)
  deriving Inhabited, Repr

namespace Reading

/-- Reads a token where a value must follow. -/
def readValue (around : List Frame) (token : Token) : Option Reading :=
  match token with
  | .arrayOpen => some (.arrayStart around)
  | .objectOpen => some (.objectStart around)
  | other => other.value?.map (.afterValue around)

/-- Reads a token after a whole value, which the innermost frame takes. -/
def readAfter (around : List Frame) (value : Json) (token : Token) : Option Reading :=
  match around, token with
  | .array items :: outer, .comma => some (.beforeValue (.array (value :: items) :: outer))
  | .array items :: outer, .arrayClose =>
    some (.afterValue outer (.array (value :: items).reverse))
  | .object fields key :: outer, .comma => some (.beforeKey outer ((key, value) :: fields))
  | .object fields key :: outer, .objectClose =>
    some (.afterValue outer (.object ((key, value) :: fields).reverse))
  | _, _ => none

/-- Reads one token. -/
def step (reading : Reading) (token : Token) : Option Reading :=
  match reading, token with
  | .beforeValue around, token => readValue around token
  | .arrayStart around, .arrayClose => some (.afterValue around (.array []))
  | .arrayStart around, token => readValue (.array [] :: around) token
  | .objectStart around, .objectClose => some (.afterValue around (.object []))
  | .objectStart around, .string key => some (.afterKey around [] key)
  | .objectStart _, _ => none
  | .beforeKey around fields, .string key => some (.afterKey around fields key)
  | .beforeKey _ _, _ => none
  | .afterKey around fields key, .colon => some (.beforeValue (.object fields key :: around))
  | .afterKey _ _ _, _ => none
  | .afterValue around value, token => readAfter around value token

/-- Reads tokens one after the other. -/
def run (reading : Reading) : List Token → Option Reading
  | [] => some reading
  | token :: rest =>
    match step reading token with
    | none => none
    | some next => run next rest

/-- The value read, if it is whole and nothing is open around it. -/
def result? : Reading → Option Json
  | .afterValue [] value => some value
  | _ => none

end Reading

/-- The value that tokens make up. -/
def ofTokens? (tokens : List Token) : Option Json :=
  ((Reading.beforeValue []).run tokens).bind Reading.result?

/-- The value that a text is. -/
def read (text : String) : Option Json :=
  (Token.scan text).bind ofTokens?

end SignalScript.Json
