/-!
# Operators

An operator is known by its text, spelled with symbols or with letters.  Its
kind is a function of that text, so a tree only stores the text.
-/

namespace SignalScript

inductive OperatorKind where
  | negator
  | logical
  | assignment
  | operation
  | equality
  /-- Not an operator of the language. -/
  | other
  deriving DecidableEq, Repr, Inhabited

/-- The kind of the operator with an upper-case text. -/
def OperatorKind.ofText (text : String) : OperatorKind :=
  match text with
  | "NOT" | "!" => .negator
  | "AND" | "OR" | "||" | "&&" | "EOR" | "^" => .logical
  | "=" | "+=" | "-=" | "*=" | "/=" | "%=" | "#=" | "/#=" => .assignment
  | "+" | "-" | "*" | "/" | "%" | "DIV" | "MOD" | "/#" => .operation
  | "==" | "!=" | "<=" | ">=" | "<" | ">" | "==#" | "!=#" | "<=#" | ">=#" | "<#" | ">#" =>
    .equality
  | _ => .other

/-- Whether the language has operators of the kind. -/
def OperatorKind.isKnown (kind : OperatorKind) : Bool :=
  kind != .other

/-- The values that are read as operators inside a script. -/
def operatorWords : List String :=
  ["AND", "OR", "NOT", "MOD", "DIV", "EOR"]

/-- Every operator word is an operator of the language. -/
theorem isKnown_of_mem_operatorWords {text : String} (mem : text ∈ operatorWords) :
    (OperatorKind.ofText text).isKnown = true := by
  revert text
  decide

end SignalScript
