import SignalScript.Proofs.Comment.Tokens
import SignalScript.Proofs.Token.Segments

/-!
# Reading with a buffer

Lines can also be read with one buffer that values and operators share, and that is not
given up where a line ends.  A reader like that gives the tokens of the stream.  Its
buffer is empty behind every line, so all that a line leaves to the next one is whether a
comment goes on, and lines can be read apart from each other.
-/

namespace SignalScript

/-- What a reader with a buffer is in the middle of. -/
inductive BufferedReader.Phase where
  /-- The buffer holds a value, or nothing. -/
  | outside
  /-- The buffer holds an operator. -/
  | operator
  /-- In a comment; `star` tells whether the last character was a star. -/
  | comment (star : Bool)
  deriving DecidableEq, Repr, Inhabited

/-- A reader of lines with a buffer. -/
structure BufferedReader where
  phase : BufferedReader.Phase := .outside
  /-- The buffer. -/
  pending : String := ""
  /-- Whether the last line has given a token. -/
  content : Bool := false
  /-- The number of the last line. -/
  lineNumber : Nat
  /-- The tokens given. -/
  tokens : List Token := []
  deriving DecidableEq, Repr, Inhabited

namespace BufferedReader

def inComment (reader : BufferedReader) : Bool :=
  match reader.phase with
  | .comment _ => true
  | .outside | .operator => false

/-- Gives a token. -/
def emit (reader : BufferedReader) (lexeme : Lexeme) : BufferedReader :=
  { reader with
    content := reader.content || lexeme.kind != .lineEnd
    tokens := reader.tokens ++ [lexeme.onLine reader.lineNumber] }

/-- Gives what the buffer holds, if it holds something. -/
def flush (reader : BufferedReader) (kind : TokenKind) : BufferedReader :=
  if reader.pending = "" then reader
  else { reader with pending := "" }.emit ⟨kind, reader.pending⟩

def flushPending (reader : BufferedReader) : BufferedReader :=
  reader.flush (if reader.phase = .operator then .operator else .value)

/-- Adds a character to the buffer. -/
def push (reader : BufferedReader) (c : Char) : BufferedReader :=
  { reader with pending := reader.pending.push c }

def startOperator (reader : BufferedReader) (c : Char) : BufferedReader :=
  { (reader.flush .value).push c with phase := .operator }

def extendOperator (reader : BufferedReader) (c : Char) : BufferedReader :=
  if reader.pending.push c ∈ compoundOperators then reader.push c
  else (reader.flush .operator).push c

/-- Reads a character outside of comments that does not begin one. -/
def readOutside (reader : BufferedReader) (c : Char) : BufferedReader :=
  match TokenKind.ofPunctuation? c with
  | some kind => { reader.flushPending with phase := .outside }.emit ⟨kind, c.toString⟩
  | none =>
    if c ∈ operatorChars then
      if reader.phase = .operator then reader.extendOperator c else reader.startOperator c
    else
      let flushed :=
        if reader.phase = .operator then { reader.flush .operator with phase := .outside }
        else reader
      { flushed with pending := flushed.pending ++ String.ofList (Text.upperCase c) }

def readChar (reader : BufferedReader) (c : Char) : BufferedReader :=
  match reader.phase with
  | .comment star =>
    if star && c == '/' then { reader with phase := .outside }
    else { reader with phase := .comment (c == '*') }
  | .operator =>
    if reader.pending = "/" ∧ c = '*' then
      { reader with phase := .comment false, pending := "" }
    else reader.readOutside c
  | .outside => reader.readOutside c

/-- Whether the rest of a line is a comment. -/
def beginsLineComment (reader : BufferedReader) (c : Char) : Prop :=
  reader.phase = .operator ∧ reader.pending = "/" ∧ c = '/'

instance (reader : BufferedReader) (c : Char) : Decidable (reader.beginsLineComment c) := by
  unfold beginsLineComment
  infer_instance

def readChars (reader : BufferedReader) : List Char → BufferedReader
  | [] => reader
  | c :: rest =>
    if reader.beginsLineComment c then
      { reader with phase := .outside, pending := "" }
    else
      (reader.readChar c).readChars rest

def beginLine (reader : BufferedReader) : BufferedReader :=
  { reader with content := false, lineNumber := nextLine reader.lineNumber }

/-- Ends a line outside of comments, with a line end if it has given a token. -/
def endLine (reader : BufferedReader) : BufferedReader :=
  let flushed := reader.flushPending
  { (if flushed.content then flushed.emit .lineEnd else flushed) with phase := .outside }

/-- Reads a line.  Where it ends in a comment, the buffer is left as it is. -/
def readLine (reader : BufferedReader) (text : String) : BufferedReader :=
  let read := reader.beginLine.readChars (Text.dropReturn text.toList)
  if read.inComment then { read with phase := .comment false } else read.endLine

def readLines (reader : BufferedReader) (lines : List String) : BufferedReader :=
  lines.foldl readLine reader

/-- Gives what is left behind the last line. -/
def finish (reader : BufferedReader) : BufferedReader :=
  if reader.inComment then reader else reader.flush .value

/-! ## The mode of a reader -/

/-- The mode of the scanner where a reader is. -/
def mode (reader : BufferedReader) : Scan.Mode :=
  match reader.phase with
  | .outside => .word reader.pending
  | .operator => .symbol reader.pending
  | .comment star => .blockComment star

/-- Whether the buffer holds something in an operator, and nothing in a comment. -/
structure Sound (reader : BufferedReader) : Prop where
  operator : reader.phase = .operator → reader.pending ≠ ""
  comment : reader.inComment = true → reader.pending = ""

section Sound

variable (reader : BufferedReader)

theorem sound_outside (pending : String) : { reader with phase := .outside, pending }.Sound where
  operator := nofun
  comment := nofun

theorem sound_operator {pending : String} (hne : pending ≠ "") :
    { reader with phase := .operator, pending }.Sound where
  operator _ := hne
  comment := nofun

theorem sound_comment (star : Bool) :
    { reader with phase := .comment star, pending := "" }.Sound where
  operator := nofun
  comment _ := rfl

end Sound

theorem inComment_eq (reader : BufferedReader) :
    reader.inComment = (reader.mode matches .blockComment _) := by
  unfold inComment mode
  cases reader.phase with
  | outside => rfl
  | operator => rfl
  | comment star => rfl

/-- What a reader becomes on a line on which the scanner reads lexemes. -/
structure Reads (before : BufferedReader) (read : List Lexeme × Scan.Mode)
    (after : BufferedReader) : Prop where
  mode : after.mode = read.2
  sound : after.Sound
  content : after.content = (before.content || !read.1.isEmpty)
  lineNumber : after.lineNumber = before.lineNumber
  tokens : after.tokens = before.tokens ++ TokenStream.locate before.lineNumber read.1

theorem Reads.trans {first second third : BufferedReader} {left right : List Lexeme × Scan.Mode}
    (hleft : Reads first left second) (hright : Reads second right third) :
    Reads first (left.1 ++ right.1, right.2) third where
  mode := hright.mode
  sound := hright.sound
  content := by
    rw [hright.content, hleft.content, Bool.or_assoc]
    cases left.1 with
    | nil => rfl
    | cons first rest => rfl
  lineNumber := hright.lineNumber.trans hleft.lineNumber
  tokens := by
    rw [hright.tokens, hleft.tokens, hleft.lineNumber, TokenStream.locate_append,
      List.append_assoc]

/-- Where nothing is given, only the mode counts. -/
theorem Reads.silent {reader : BufferedReader} {phase : Phase} {pending : String}
    (hsound : { reader with phase, pending }.Sound) :
    Reads reader ([], { reader with phase, pending }.mode) { reader with phase, pending } where
  mode := rfl
  sound := hsound
  content := (Bool.or_false _).symm
  lineNumber := rfl
  tokens := (List.append_nil _).symm

/-- Flushing gives what the scanner has collected. -/
theorem flushPending_eq {reader : BufferedReader} (hsound : reader.Sound) :
    reader.flushPending =
      { reader with
        pending := ""
        content := reader.content || !reader.mode.flush.isEmpty
        tokens := reader.tokens ++ TokenStream.locate reader.lineNumber reader.mode.flush } := by
  obtain ⟨phase, pending, content, lineNumber, tokens⟩ := reader
  cases phase with
  | outside =>
      by_cases hempty : pending = ""
      · simp [flushPending, flush, mode, Scan.Mode.flush, hempty, TokenStream.locate]
      · simp [flushPending, flush, mode, Scan.Mode.flush, hempty, TokenStream.locate, emit]
  | operator =>
      have hne : pending ≠ "" := hsound.operator rfl
      simp [flushPending, flush, mode, Scan.Mode.flush, hne, TokenStream.locate, emit]
  | comment star =>
      obtain rfl : pending = "" := hsound.comment rfl
      simp [flushPending, flush, mode, Scan.Mode.flush, TokenStream.locate]

/-- What can be collected behind a flush. -/
theorem reads_flushPending {reader : BufferedReader} (hsound : reader.Sound) {phase : Phase}
    {pending : String} (hnext : { reader with phase, pending }.Sound) :
    Reads reader (reader.mode.flush, { reader with phase, pending }.mode)
      { reader.flushPending with phase, pending } := by
  rw [flushPending_eq hsound]
  exact ⟨rfl, ⟨hnext.operator, hnext.comment⟩, rfl, rfl, rfl⟩

theorem reads_emit {reader : BufferedReader} (hsound : reader.Sound) {lexeme : Lexeme}
    (hkind : lexeme.kind ≠ .lineEnd) :
    Reads reader ([lexeme], reader.mode) (reader.emit lexeme) where
  mode := rfl
  sound := ⟨hsound.operator, hsound.comment⟩
  content := by simp [emit, hkind]
  lineNumber := rfl
  tokens := rfl

/-! ## One character -/

/-- Where an operator cannot go on, the next one begins with an empty buffer. -/
private theorem readOperator_eq {reader : BufferedReader} (hsound : reader.Sound) {c : Char}
    (hends : reader.phase = .operator → reader.pending.push c ∉ compoundOperators) :
    (if reader.phase = .operator then reader.extendOperator c else reader.startOperator c) =
      { reader.flushPending with phase := .operator, pending := c.toString } := by
  split
  next hphase =>
    have hflush : reader.flush .operator = reader.flushPending := by
      rw [flushPending, if_pos hphase]
    rw [extendOperator, if_neg (hends hphase), hflush, flushPending_eq hsound, ← hphase]
    rfl
  next hphase =>
    have hflush : reader.flush .value = reader.flushPending := by
      rw [flushPending, if_neg hphase]
    rw [startOperator, hflush, flushPending_eq hsound]
    rfl

theorem reads_readOutside {reader : BufferedReader} (hsound : reader.Sound)
    (houtside : reader.inComment = false) {c : Char}
    (hends : reader.phase = .operator → reader.pending.push c ∉ compoundOperators) :
    Reads reader (Scan.begin reader.mode c) (reader.readOutside c) := by
  cases hkind : TokenKind.ofPunctuation? c with
  | some kind =>
      have hflush := reads_flushPending hsound (reader.sound_outside "")
      have hmark :=
        @reads_emit _ hflush.sound ⟨kind, c.toString⟩ (Scan.ne_of_punctuation hkind).2.2
      have hempty : { reader.flushPending with phase := .outside } =
          { reader.flushPending with phase := .outside, pending := "" } := by
        rw [flushPending_eq hsound]
      simp only [readOutside, Scan.begin, hkind]
      rw [hempty]
      exact hflush.trans hmark
  | none =>
      simp only [readOutside, Scan.begin, hkind]
      by_cases hoperator : c ∈ operatorChars
      · have hne : c.toString ≠ "" := by simp
        rw [if_pos hoperator, if_pos hoperator, readOperator_eq hsound hends]
        exact reads_flushPending hsound (reader.sound_operator hne)
      · rw [if_neg hoperator, if_neg hoperator]
        cases hphase : reader.phase with
        | outside =>
            have hmode : reader.mode = .word reader.pending := by rw [mode, hphase]
            have hsilent := Reads.silent
              (reader.sound_outside (reader.pending ++ String.ofList (Text.upperCase c)))
            rw [hmode, if_neg (by simp), hphase]
            exact hsilent
        | operator =>
            have hmode : reader.mode = .symbol reader.pending := by rw [mode, hphase]
            have hflush := reads_flushPending hsound
              (reader.sound_outside (String.ofList (Text.upperCase c)))
            have hpending : reader.flush .operator = reader.flushPending := by
              rw [flushPending, if_pos hphase]
            have hempty : "" ++ String.ofList (Text.upperCase c) =
                String.ofList (Text.upperCase c) := String.empty_append
            rw [flushPending_eq hsound, hmode] at hflush
            rw [if_pos rfl, hpending, flushPending_eq hsound, hempty, hmode]
            exact hflush
        | comment star => simp [inComment, hphase] at houtside

/-- A character is read as the scanner reads it, unless the rest of the line is a comment. -/
theorem reads_readChar {reader : BufferedReader} (hsound : reader.Sound) {c : Char}
    (hline : ¬ reader.beginsLineComment c) :
    Reads reader (Scan.step reader.mode c) (reader.readChar c) := by
  cases hphase : reader.phase with
  | outside =>
      have hread := reads_readOutside hsound (c := c) (by simp [inComment, hphase])
        (by simp [hphase])
      have hmode : reader.mode = .word reader.pending := by rw [mode, hphase]
      rw [hmode] at hread ⊢
      simp only [readChar, hphase]
      exact hread
  | operator =>
      have hmode : reader.mode = .symbol reader.pending := by rw [mode, hphase]
      have hslash : ¬ (reader.pending = "/" ∧ c = '/') := fun hboth => hline ⟨hphase, hboth⟩
      rw [hmode, Scan.step, if_neg hslash]
      simp only [readChar, hphase]
      by_cases hstar : reader.pending = "/" ∧ c = '*'
      · rw [if_pos hstar, if_pos hstar]
        exact Reads.silent (reader.sound_comment false)
      · rw [if_neg hstar, if_neg hstar]
        by_cases hcompound : reader.pending.push c ∈ compoundOperators
        · obtain ⟨hoperator, hpunctuation⟩ := operatorChar_of_push hcompound
          have hne : reader.pending.push c ≠ "" := by simp
          simp only [if_pos hcompound, readOutside, hpunctuation, if_pos hoperator, if_pos hphase,
            extendOperator, push]
          rw [hphase]
          exact Reads.silent (reader.sound_operator hne)
        · have hread := reads_readOutside hsound (c := c) (by simp [inComment, hphase])
            fun _ => hcompound
          rw [hmode] at hread
          rw [if_neg hcompound]
          exact hread
  | comment star =>
      have hempty : reader.pending = "" := hsound.comment (by simp [inComment, hphase])
      have hmode : reader.mode = .blockComment star := by rw [mode, hphase]
      have hnext : ∀ phase, phase ≠ .operator → { reader with phase }.Sound :=
        fun phase hphase => ⟨fun hoperator => absurd hoperator hphase, fun _ => hempty⟩
      rw [hmode, Scan.step]
      simp only [readChar, hphase]
      split
      · have hidle : { reader with phase := .outside }.mode = .idle :=
          congrArg Scan.Mode.word hempty
        rw [← hidle]
        exact Reads.silent (hnext .outside (by simp))
      · exact Reads.silent (hnext (.comment (c == '*')) (by simp))

/-! ## Lines -/

/-- The mode in which the line is left, as a reader has it: a comment that ends with the
line is left at once. -/
def leave : Scan.Mode → Scan.Mode
  | .lineComment => .idle
  | mode => mode

theorem leave_mode (reader : BufferedReader) : leave reader.mode = reader.mode := by
  unfold mode
  split
  · rfl
  · rfl
  · rfl

/-- Characters are read as the scanner reads them. -/
theorem reads_readChars {reader : BufferedReader} (hsound : reader.Sound) (text : List Char) :
    Reads reader ((Scan.run reader.mode text).1, leave (Scan.run reader.mode text).2)
      (reader.readChars text) := by
  induction text generalizing reader with
  | nil =>
      rw [Scan.run_nil, leave_mode]
      exact Reads.silent hsound
  | cons c rest ih =>
      rw [readChars, Scan.run_cons]
      split
      next hline =>
        -- The scanner reads on to the end of the line, and finds nothing more.
        obtain ⟨hphase, hpending, rfl⟩ := hline
        have hstep : Scan.step reader.mode '/' = ([], .lineComment) := by
          simp [mode, hphase, hpending, Scan.step]
        rw [hstep, Scan.run_lineComment]
        exact Reads.silent (reader.sound_outside "")
      next hline =>
        have hfirst := reads_readChar hsound hline
        have hrest := ih hfirst.sound
        rw [hfirst.mode] at hrest
        exact hfirst.trans hrest

/-- Where a reader stands between two lines: all that it has kept is whether a comment
goes on. -/
structure Between (inside : Bool) (reader : BufferedReader) : Prop where
  phase : reader.phase = if inside then .comment false else .outside
  pending : reader.pending = ""

theorem Between.mode_eq {inside : Bool} {reader : BufferedReader}
    (hbetween : reader.Between inside) :
    reader.mode = if inside then .blockComment false else .idle := by
  rw [mode, hbetween.phase, hbetween.pending]
  cases inside with
  | false => rfl
  | true => rfl

theorem Between.sound {inside : Bool} {reader : BufferedReader}
    (hbetween : reader.Between inside) : reader.Sound := by
  refine ⟨?_, fun _ => hbetween.pending⟩
  intro hoperator
  rw [hbetween.phase] at hoperator
  cases inside with
  | false => cases hoperator
  | true => cases hoperator

theorem Between.beginLine {inside : Bool} {reader : BufferedReader}
    (hbetween : reader.Between inside) : reader.beginLine.Between inside :=
  ⟨hbetween.phase, hbetween.pending⟩

/-- What is left to give at the end of a line. -/
theorem endLine_eq {reader : BufferedReader} (hsound : reader.Sound) :
    reader.endLine.Between false ∧ reader.endLine.lineNumber = reader.lineNumber ∧
      reader.endLine.tokens = reader.tokens ++ TokenStream.locate reader.lineNumber
        (reader.mode.flush ++
          if reader.content || !reader.mode.flush.isEmpty then [.lineEnd] else []) := by
  rw [endLine, flushPending_eq hsound]
  cases reader.content || !reader.mode.flush.isEmpty with
  | false => exact ⟨⟨rfl, rfl⟩, rfl, by simp⟩
  | true => exact ⟨⟨rfl, rfl⟩, rfl, by simp [emit, TokenStream.locate]⟩

/-- A line is read as the scanner reads it, and nothing is kept in the buffer. -/
theorem readLine_eq {inside : Bool} {reader : BufferedReader} (hbetween : reader.Between inside)
    (text : String) :
    let scan := Scan.line inside text
    let after := reader.readLine text
    after.Between scan.inComment ∧ after.lineNumber = nextLine reader.lineNumber ∧
      after.tokens =
        reader.tokens ++ TokenStream.locate (nextLine reader.lineNumber) scan.lexemes := by
  intro scan after
  have hbegun := hbetween.beginLine
  have hreads := reads_readChars hbegun.sound (Text.dropReturn text.toList)
  rw [hbegun.mode_eq] at hreads
  simp only [scan, after, Scan.line, readLine]
  generalize reader.beginLine.readChars (Text.dropReturn text.toList) = read at hreads ⊢
  split
  next lexemes star hrun =>
    rw [hrun] at hreads
    have hinside : read.inComment = true := by
      rw [inComment_eq, hreads.mode]
      rfl
    rw [if_pos hinside]
    exact ⟨⟨rfl, hreads.sound.comment hinside⟩, hreads.lineNumber, hreads.tokens⟩
  next lexemes mode hcomment hrun =>
    rw [hrun] at hreads
    obtain ⟨houtside, hflush⟩ : read.inComment = false ∧ read.mode.flush = mode.flush := by
      rw [inComment_eq, hreads.mode]
      cases mode with
      | blockComment star => exact absurd rfl (hcomment star)
      | word text => exact ⟨rfl, rfl⟩
      | symbol text => exact ⟨rfl, rfl⟩
      | lineComment => exact ⟨rfl, rfl⟩
    obtain ⟨hafter, hnumber, htokens⟩ := endLine_eq hreads.sound
    rw [if_neg (by simp [houtside])]
    refine ⟨hafter, hnumber.trans hreads.lineNumber, ?_⟩
    have hclose : lexemes ++ (mode.flush ++
        if !lexemes.isEmpty || !mode.flush.isEmpty then [.lineEnd] else []) =
        Scan.close lexemes mode := by
      rw [← List.append_assoc, Scan.close]
      cases lexemes with
      | nil =>
          cases mode.flush with
          | nil => rfl
          | cons first rest => rfl
      | cons first rest => rfl
    rw [htokens, hreads.tokens, hreads.lineNumber, hreads.content, hflush, List.append_assoc,
      ← TokenStream.locate_append, ← hclose]
    rfl

/-- Lines are read as the stream reads them. -/
theorem readLines_eq {inside : Bool} {reader : BufferedReader} (hbetween : reader.Between inside)
    (lines : List String) :
    (reader.readLines lines).Between (Comment.openAfter inside lines) ∧
      (reader.readLines lines).lineNumber = lineAfter reader.lineNumber lines.length ∧
      (reader.readLines lines).tokens =
        reader.tokens ++ TokenStream.tokensOfLines reader.lineNumber inside lines := by
  induction lines generalizing inside reader with
  | nil => exact ⟨hbetween, rfl, (List.append_nil _).symm⟩
  | cons text rest ih =>
      obtain ⟨hnext, hnumber, htokens⟩ := readLine_eq hbetween text
      obtain ⟨hlast, hlastNumber, hlastTokens⟩ := ih hnext
      refine ⟨?_, ?_, ?_⟩
      · rw [Scan.inComment_line] at hlast
        exact hlast
      · refine hlastNumber.trans ?_
        rw [hnumber]
        rfl
      · refine hlastTokens.trans ?_
        rw [htokens, hnumber, List.append_assoc]
        rfl

/-- There is nothing left to give behind the last line. -/
theorem Between.finish_eq {inside : Bool} {reader : BufferedReader}
    (hbetween : reader.Between inside) : reader.finish = reader := by
  rw [finish, flush, if_pos hbetween.pending, ite_self]

end BufferedReader

namespace Comment

/-- Lines with the beginning of a comment in front of them. -/
def reopen : List String → List String
  | [] => []
  | text :: rest => ("/*" ++ text) :: rest

end Comment

namespace Scan

/-- A line that begins in a comment is as if the comment had begun in front of it. -/
theorem line_reopen (text : String) : line false ("/*" ++ text) = line true text := by
  have hdrop : Text.dropReturn ("/*" ++ text).toList =
      '/' :: '*' :: Text.dropReturn text.toList := by
    rw [String.toList_append]
    exact Text.dropReturn_append (by decide) text.toList
  have hrun : ∀ rest, run .idle ('/' :: '*' :: rest) = run (.blockComment false) rest :=
    fun rest => rfl
  simp only [line, hdrop, Bool.false_eq_true, if_false, if_true, hrun]

/-- A slash that a line in a comment begins with ends no comment. -/
theorem line_slash (text : String) : line true ("/" ++ text) = line true text := by
  have hdrop : Text.dropReturn ("/" ++ text).toList = '/' :: Text.dropReturn text.toList := by
    rw [String.toList_append]
    exact Text.dropReturn_append (by decide) text.toList
  have hrun : ∀ rest, run (.blockComment false) ('/' :: rest) = run (.blockComment false) rest :=
    fun rest => rfl
  simp only [line, hdrop, if_true, hrun]

end Scan

namespace TokenStream

open Comment (openAfter reopen)

/-- Lines have the same numbers, whether or not the count has started over before them. -/
theorem tokensOfLines_lineAfter (lineNumber count : Nat) (inside : Bool) (lines : List String) :
    tokensOfLines (lineAfter lineNumber count) inside lines =
      tokensOfLines (lineNumber + count) inside lines := by
  cases lines with
  | nil => rfl
  | cons text rest =>
      rw [tokensOfLines, tokensOfLines, nextLine_lineAfter, lineAfter_add_one]
      rfl

theorem tokensOfLines_reopen (lineNumber : Nat) (lines : List String) :
    tokensOfLines lineNumber false (reopen lines) = tokensOfLines lineNumber true lines := by
  cases lines with
  | nil => rfl
  | cons text rest => rw [reopen, tokensOfLines, tokensOfLines, Scan.line_reopen]

/-- Lines can be read apart from each other: the second ones give the same tokens on their
own, with a comment opened in front of them if one goes on behind the first ones.  A reader
with a buffer has nothing in it then, so that it has nothing left to give, and does not know
whether a star was last: a slash that comes next does not count. -/
theorem toList_ofLines_append (first second : List String) (offset : Nat) :
    let opened := openAfter false first
    let reader := BufferedReader.readLines { lineNumber := offset } first
    (ofLines (first ++ second) offset).toList =
        (ofLines first offset).toList ++
          (ofLines (if opened then reopen second else second) (offset + first.length)).toList ∧
      (reader.tokens = (ofLines first offset).toList ∧ reader.Between opened ∧
        reader.finish = reader) ∧
      ∀ text rest,
        (ofLines (first ++ (if opened then "/" ++ text else text) :: rest) offset).toList =
          (ofLines (first ++ text :: rest) offset).toList := by
  intro opened reader
  have hstart : BufferedReader.Between false { lineNumber := offset } := ⟨rfl, rfl⟩
  obtain ⟨hbetween, -, htokens⟩ := BufferedReader.readLines_eq hstart first
  have hlist : ∀ (lines : List String) (number : Nat),
      (ofLines lines number).toList = tokensOfLines number false lines := fun _ _ => rfl
  refine ⟨?_, ⟨htokens, hbetween, hbetween.finish_eq⟩, ?_⟩
  · rw [hlist, hlist, hlist, tokensOfLines_append, tokensOfLines_lineAfter]
    congr 1
    cases hopened : openAfter false first with
    | false => simp [opened, hopened]
    | true => simp [opened, hopened, tokensOfLines_reopen]
  · intro text rest
    rw [hlist, hlist, tokensOfLines_append, tokensOfLines_append]
    congr 1
    cases hopened : openAfter false first with
    | false => simp [opened, hopened]
    | true => simp [opened, hopened, tokensOfLines, Scan.line_slash]

end TokenStream

end SignalScript
