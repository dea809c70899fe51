import SignalScript.Json.Text
import SignalScript.Options
import SignalScript.Text.Digits
import SignalScript.Yaml.Document

/-!
# Options in documents

Settings are read from the fields of a document, in any order.  A setting that
is missing has its default; an unknown or repeated key, or a value of the wrong
type, spoils the document.
-/

namespace SignalScript.Options

/-- How the values of a kind of document are read. -/
structure ValueReader (Value : Type) where
  text : Value → Option String
  /-- A natural number below `Json.natBound`. -/
  number : Value → Option Nat
  flag : Value → Option Bool
  /-- A number, or the value that stands for no limit. -/
  limit : Value → Option (Option Nat)

/-- The keys of the settings, in the order of a document that lists values
alone. -/
def keys : List String := ["schema", "line_offset", "strict_operators", "max_depth"]

/-- The settings with one of them read from a field. -/
def readField {Value : Type} (reader : ValueReader Value) (options : Options)
    (field : String × Value) : Option Options :=
  match field with
  | ("schema", value) => (reader.text value).map fun schema => { options with schema }
  | ("line_offset", value) =>
    (reader.number value).map fun lineOffset => { options with lineOffset }
  | ("strict_operators", value) =>
    (reader.flag value).map fun strictOperators => { options with strictOperators }
  | ("max_depth", value) => (reader.limit value).map fun maxDepth => { options with maxDepth }
  | _ => none

/-- The settings that fields make up. -/
def ofFields? {Value : Type} (reader : ValueReader Value) (fields : List (String × Value)) :
    Option Options :=
  if (fields.map Prod.fst).Nodup then fields.foldlM (readField reader) {} else none

/-! ## JSON -/

def jsonReader : ValueReader Json where
  text := Json.string?
  number := Json.nat?
  flag := Json.bool?
  limit
    | .null => some none
    | value => value.nat?.map some

/-- The settings that a JSON value is: an object, or a list of values in the
order of `keys`, of which those at the end may be missing. -/
def ofJson? : Json → Option Options
  | .object fields => ofFields? jsonReader fields
  | .array items =>
    if items.length ≤ keys.length then ofFields? jsonReader (keys.zip items) else none
  | _ => none

/-- The fields of the JSON object that settings are written as. -/
def jsonFields (options : Options) : List (String × Json) :=
  [("schema", .string options.schema), ("line_offset", .nat options.lineOffset),
    ("strict_operators", .bool options.strictOperators),
    ("max_depth", Json.ofOption (options.maxDepth.map .nat))]

/-- The settings as a JSON object. -/
def toJson (options : Options) : Json := .object options.jsonFields

/-! ## YAML -/

/-- A number without its sign, in base 16, 8 or 2 with a mark of the base in
front, or in base 10 without leading zeros. -/
def ofNumeral? : List Char → Option Nat
  | '0' :: 'x' :: digits => Text.ofDigits? 16 digits
  | '0' :: 'o' :: digits => Text.ofDigits? 8 digits
  | '0' :: 'b' :: digits => Text.ofDigits? 2 digits
  | digits => Text.natural? digits

/-- A natural number, which may have a plus sign. -/
def ofPlainNumber? (text : String) : Option Nat :=
  let value := match text.toList with
    | '+' :: digits => ofNumeral? digits
    | digits => ofNumeral? digits
  value.filter (· < Json.natBound)

/-- A truth value in one of its spellings. -/
def ofPlainFlag? (text : String) : Option Bool :=
  if text ∈ ["true", "True", "TRUE"] then some true
  else if text ∈ ["false", "False", "FALSE"] then some false
  else none

/-- The spellings of no value. -/
def plainNulls : List String := ["", "~", "null", "Null", "NULL"]

/-- Reads a plain scalar by its text; one between quotes is nothing but text. -/
def ofPlain {α : Type} (read : String → Option α) (scalar : Yaml.Scalar) : Option α :=
  if scalar.isPlain then read scalar.text else none

def yamlReader : ValueReader Yaml.Scalar where
  text scalar := some scalar.text
  number := ofPlain ofPlainNumber?
  flag := ofPlain ofPlainFlag?
  limit := ofPlain fun text =>
    if text ∈ plainNulls then some none else (ofPlainNumber? text).map some

/-- The settings that the fields of a YAML mapping make up. -/
def ofYaml? (fields : Yaml.Fields) : Option Options :=
  ofFields? yamlReader (fields.map fun (key, value) => (key.text, value))

end SignalScript.Options
