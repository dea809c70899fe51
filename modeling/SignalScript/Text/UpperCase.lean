import SignalScript.Text.UpperCase.Table

/-!
# Upper-casing

Signal scripts do not distinguish letter case: every character is read as its
upper-case form.  The mapping is the full one of Unicode without any context,
so one character can become up to three (`ß` becomes `SS`).
-/

namespace SignalScript.Text

/-- The upper-case form of one character.  ASCII letters are mapped directly;
everything else is looked up, and characters without an entry stand for
themselves. -/
def upperCase (c : Char) : List Char :=
  let code := c.toNat
  if code < 0x80 then
    [c.toUpper]
  else
    match UpperCase.expansions.lookup code with
    | some codes => codes.map Char.ofNat
    | none =>
      match UpperCase.runs.find? (·.covers code) with
      | some run => [Char.ofNat (run.image code)]
      | none => [c]

/-- The upper-case form of a text, character by character. -/
def upperCaseText (text : List Char) : List Char :=
  text.flatMap upperCase

@[simp]
theorem upperCaseText_nil : upperCaseText [] = [] := rfl

@[simp]
theorem upperCaseText_cons (c : Char) (text : List Char) :
    upperCaseText (c :: text) = upperCase c ++ upperCaseText text := rfl

@[simp]
theorem upperCaseText_append (left right : List Char) :
    upperCaseText (left ++ right) = upperCaseText left ++ upperCaseText right := by
  simp [upperCaseText]

end SignalScript.Text
