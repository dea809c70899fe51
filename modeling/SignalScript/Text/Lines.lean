/-!
# Lines of a text

A text is cut into lines at line feeds.  A carriage return directly before a
line feed belongs to the line break.  What follows the last line feed is a line
of its own unless it is empty, and keeps a carriage return it ends with.
-/

namespace SignalScript.Text

/-- Puts a character in front of the first line, starting one if there is
none. -/
def consFirstLine (c : Char) : List (List Char) → List (List Char)
  | [] => [[c]]
  | line :: rest => (c :: line) :: rest

/-- The lines of a text, as lists of characters. -/
def splitLines : List Char → List (List Char)
  | [] => []
  | '\n' :: rest => [] :: splitLines rest
  | '\r' :: '\n' :: rest => [] :: splitLines rest
  | c :: rest => consFirstLine c (splitLines rest)

/-- The lines of a text. -/
def lines (source : String) : List String :=
  (splitLines source.toList).map String.ofList

/-- A line without the carriage return it ends with, if it does; only one is
taken away. -/
def dropReturn (line : List Char) : List Char :=
  if line.getLast? = some '\r' then line.dropLast else line

@[simp]
theorem lines_empty : lines "" = [] := rfl

theorem splitLines_feed (rest : List Char) :
    splitLines ('\n' :: rest) = [] :: splitLines rest := by
  rw [splitLines]

theorem splitLines_return_feed (rest : List Char) :
    splitLines ('\r' :: '\n' :: rest) = [] :: splitLines rest := by
  rw [splitLines]

@[simp]
theorem dropReturn_concat (line : List Char) :
    dropReturn (line ++ ['\r']) = line := by
  simp [dropReturn]

end SignalScript.Text
