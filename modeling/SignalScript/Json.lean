/-!
# JSON values

The JSON values that options documents and findings are made of.  Numbers are
integers: no setting and no finding holds a fraction.  An object keeps its
fields in order, repeated keys included, so that a reader of a document can
refuse a repetition.
-/

namespace SignalScript

inductive Json where
  | null
  | bool (value : Bool)
  | integer (value : Int)
  | string (text : String)
  | array (items : List Json)
  | object (fields : List (String × Json))
  deriving Inhabited, Repr

namespace Json

/-- A natural number as a JSON value. -/
def nat (value : Nat) : Json := .integer value

/-- The value itself, or null if there is none. -/
def ofOption (value : Option Json) : Json := value.getD .null

def string? : Json → Option String
  | .string text => some text
  | _ => none

def bool? : Json → Option Bool
  | .bool value => some value
  | _ => none

/-- The bound of the numbers that settings and line numbers can be. -/
def natBound : Nat := 18446744073709551616

/-- The natural number below `natBound` that a value is. -/
def nat? : Json → Option Nat
  | .integer (.ofNat value) => if value < natBound then some value else none
  | _ => none

/-- The value of the first field with a key. -/
def field? (fields : List (String × Json)) (key : String) : Option Json :=
  fields.lookup key

@[simp]
theorem string?_string (text : String) : (Json.string text).string? = some text := rfl

@[simp]
theorem bool?_bool (value : Bool) : (Json.bool value).bool? = some value := rfl

@[simp]
theorem nat?_nat {value : Nat} (bound : value < natBound) : (nat value).nat? = some value := by
  simp [nat, nat?, bound]

end Json

end SignalScript
