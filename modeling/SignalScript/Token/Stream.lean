import SignalScript.Json
import SignalScript.Token.Scan

/-!
# Token streams

A stream hands out the tokens of a sequence of lines.  It reads a line only
when every token of the lines before has been taken, so whoever takes tokens
never makes it read further ahead than the line being worked on.  The numbers
of the lines are counted in 64 bits.
-/

namespace SignalScript

/-! ## Line numbers -/

/-- The number of the next line.  Behind the last number below the bound the
count starts over. -/
def nextLine (line : Nat) : Nat := (line + 1) % Json.natBound

/-- The number of the line that comes a number of lines behind another one. -/
def lineAfter (line : Nat) : Nat → Nat
  | 0 => line
  | count + 1 => lineAfter (nextLine line) count

theorem nextLine_eq_add_one {line : Nat} (bound : line + 1 < Json.natBound) :
    nextLine line = line + 1 :=
  Nat.mod_eq_of_lt bound

@[simp]
theorem lineAfter_zero (line : Nat) : lineAfter line 0 = line := rfl

theorem nextLine_lineAfter (line count : Nat) :
    nextLine (lineAfter line count) = lineAfter line (count + 1) := by
  induction count generalizing line with
  | zero => rfl
  | succ count ih => exact ih (nextLine line)

/-- Numbers are counted modulo the bound, wherever the count begins. -/
theorem lineAfter_add_one (line count : Nat) :
    lineAfter line (count + 1) = (line + count + 1) % Json.natBound := by
  induction count with
  | zero => rfl
  | succ count ih => rw [← nextLine_lineAfter, ih, nextLine, Nat.mod_add_mod, Nat.add_assoc line]

theorem lineAfter_eq_mod {line : Nat} (bound : line < Json.natBound) (count : Nat) :
    lineAfter line count = (line + count) % Json.natBound := by
  cases count with
  | zero => exact (Nat.mod_eq_of_lt bound).symm
  | succ count => exact lineAfter_add_one line count

/-- As long as the numbers are below the bound they are just counted up. -/
theorem lineAfter_eq_add {line count : Nat} (bound : line + count < Json.natBound) :
    lineAfter line count = line + count := by
  rw [lineAfter_eq_mod (by omega), Nat.mod_eq_of_lt bound]

/-! ## Streams -/

structure TokenStream where
  /-- The lines not read yet. -/
  lines : List String
  /-- The number of the last line read. -/
  lineNumber : Nat := 0
  /-- Whether the last line read ended inside a block comment. -/
  inComment : Bool := false
  /-- The tokens of the last line read that have not been taken. -/
  queue : List Token := []
  deriving DecidableEq, Repr, Inhabited

namespace TokenStream

/-- A stream over lines whose numbers start after `offset`. -/
def ofLines (lines : List String) (offset : Nat) : TokenStream :=
  { lines, lineNumber := offset }

/-- A stream over the lines of a text, numbered from 1. -/
def ofSource (source : String) : TokenStream :=
  ofLines (Text.lines source) 0

/-- The tokens of a line that was scanned. -/
def locate (line : Nat) (lexemes : List Lexeme) : List Token :=
  lexemes.map (·.onLine line)

/-- Reads lines up to the first one that has a token. -/
def readLines (lineNumber : Nat) (inComment : Bool) : List String → Option Token × TokenStream
  | [] => (none, { lines := [], lineNumber, inComment })
  | line :: rest =>
    let scan := Scan.line inComment line
    match locate (nextLine lineNumber) scan.lexemes with
    | [] => readLines (nextLine lineNumber) scan.inComment rest
    | token :: queue =>
      (some token,
        { lines := rest, lineNumber := nextLine lineNumber, inComment := scan.inComment, queue })

/-- Takes the next token, reading lines as far as needed.  Without a token left
all lines have been read. -/
def next (stream : TokenStream) : Option Token × TokenStream :=
  match stream.queue with
  | token :: queue => (some token, { stream with queue })
  | [] => readLines stream.lineNumber stream.inComment stream.lines

/-- The tokens of lines, numbered after `lineNumber`. -/
def tokensOfLines (lineNumber : Nat) (inComment : Bool) : List String → List Token
  | [] => []
  | line :: rest =>
    let scan := Scan.line inComment line
    locate (nextLine lineNumber) scan.lexemes ++
      tokensOfLines (nextLine lineNumber) scan.inComment rest

/-- All tokens that the stream has left to hand out. -/
def toList (stream : TokenStream) : List Token :=
  stream.queue ++ tokensOfLines stream.lineNumber stream.inComment stream.lines

theorem readLines_toList (lineNumber : Nat) (inComment : Bool) (lines : List String) :
    (readLines lineNumber inComment lines).1 =
        (tokensOfLines lineNumber inComment lines).head? ∧
      (readLines lineNumber inComment lines).2.toList =
        (tokensOfLines lineNumber inComment lines).tail := by
  induction lines generalizing lineNumber inComment with
  | nil => exact ⟨rfl, rfl⟩
  | cons line rest ih =>
    simp only [readLines, tokensOfLines]
    split
    · rename_i empty
      simpa [empty] using ih _ _
    · rename_i token queue found
      simp [found, toList]

/-- The token taken is the first one left. -/
theorem next_fst (stream : TokenStream) : stream.next.1 = stream.toList.head? := by
  rw [next]
  split
  · rename_i token queue found
    simp [toList, found]
  · rename_i empty
    simp [toList, empty, readLines_toList]

/-- Taking a token leaves the others. -/
theorem toList_next (stream : TokenStream) : stream.next.2.toList = stream.toList.tail := by
  rw [next]
  split
  · rename_i token queue found
    simp [toList, found]
  · rename_i empty
    rw [(readLines_toList _ _ _).2]
    simp [toList, empty]

theorem length_toList_of_next {stream after : TokenStream} {token : Token}
    (found : stream.next = (some token, after)) :
    after.toList.length < stream.toList.length := by
  have first := next_fst stream
  have rest := toList_next stream
  rw [found] at first rest
  cases tokens : stream.toList with
  | nil => simp [tokens] at first
  | cons _ others => simp [rest, tokens]

theorem toList_of_next_none {stream after : TokenStream} (found : stream.next = (none, after)) :
    after.toList = [] := by
  have first := next_fst stream
  have rest := toList_next stream
  rw [found] at first rest
  cases tokens : stream.toList with
  | nil => simpa [tokens] using rest
  | cons _ others => simp [tokens] at first

end TokenStream

/-- All tokens of a text. -/
def tokenize (source : String) : List Token :=
  (TokenStream.ofSource source).toList

end SignalScript
