import SignalScript.Token.Stream

/-!
# Reading lines

A stream of lines has always read the first few of them and no more, and all tokens that it
holds back stand on the last of these.  So the number of the last line read is the line of
the token taken last, until there is none left and all lines have been read.
-/

namespace SignalScript

namespace TokenStream

/-- Whether a token stands on the last of the first `count` lines, which are numbered after
an offset. -/
structure StandsOn (lines : List String) (offset count : Nat) (token : Token) : Prop where
  line_eq : token.line = lineAfter offset count
  lexeme_mem : ∃ text inComment, (lines.take count).getLast? = some text ∧
    token.lexeme ∈ (Scan.line inComment text).lexemes

/-- Whether a stream has read the first `count` of its lines, which are numbered after an
offset, and none behind them. -/
structure HasRead (lines : List String) (offset count : Nat) (stream : TokenStream) : Prop where
  count_le : count ≤ lines.length
  lines_eq : stream.lines = lines.drop count
  lineNumber_eq : stream.lineNumber = lineAfter offset count
  queue : ∀ token ∈ stream.queue, StandsOn lines offset count token

/-- Whether a stream has read the lines up to the one that a token stands on, and none behind
it. -/
def ReadUpTo (lines : List String) (offset : Nat) (stream : TokenStream) (token : Token) : Prop :=
  ∃ count, stream.HasRead lines offset count ∧ StandsOn lines offset count token

variable {lines : List String} {offset count : Nat}

theorem ReadUpTo.lineNumber_eq {stream : TokenStream} {token : Token}
    (hread : stream.ReadUpTo lines offset token) : stream.lineNumber = token.line := by
  obtain ⟨count, hread, hstands⟩ := hread
  rw [hread.lineNumber_eq, hstands.line_eq]

theorem hasRead_ofLines (lines : List String) (offset : Nat) :
    (ofLines lines offset).HasRead lines offset 0 where
  count_le := Nat.zero_le _
  lines_eq := rfl
  lineNumber_eq := rfl
  queue := nofun

/-- The last of the lines up to one is that line. -/
private theorem getLast?_take_succ {text : String} {rest : List String}
    (hrest : lines.drop count = text :: rest) : (lines.take (count + 1)).getLast? = some text := by
  have htext : lines[count]? = some text := by
    rw [← List.head?_drop, hrest, List.head?_cons]
  rw [List.take_add_one, htext, Option.toList_some, List.getLast?_concat]

private theorem drop_succ {text : String} {rest : List String}
    (hrest : lines.drop count = text :: rest) : lines.drop (count + 1) = rest := by
  rw [← List.drop_drop, hrest, List.drop_one, List.tail_cons]

/-- The tokens of a line stand on it. -/
private theorem standsOn_of_mem_locate {text : String} {rest : List String}
    (hrest : lines.drop count = text :: rest) {inComment : Bool} {token : Token}
    (htoken : token ∈ locate (lineAfter offset (count + 1)) (Scan.line inComment text).lexemes) :
    StandsOn lines offset (count + 1) token := by
  obtain ⟨lexeme, hlexeme, rfl⟩ := List.mem_map.mp htoken
  exact ⟨rfl, text, inComment, getLast?_take_succ hrest, hlexeme⟩

/-- What reading on leads to: the first token of a line that has one, or the end. -/
private theorem hasRead_readLines (hcount : count ≤ lines.length) (inComment : Bool) :
    (∀ token after,
        readLines (lineAfter offset count) inComment (lines.drop count) = (some token, after) →
          after.ReadUpTo lines offset token) ∧
      ∀ after, readLines (lineAfter offset count) inComment (lines.drop count) = (none, after) →
        after.HasRead lines offset lines.length ∧ after.queue = [] := by
  generalize hrest : lines.drop count = rest
  induction rest generalizing count inComment with
  | nil =>
      have hall : count = lines.length :=
        Nat.le_antisymm hcount (List.drop_eq_nil_iff.mp hrest)
      subst hall
      constructor
      · rintro token after hread
        cases hread
      · rintro after hread
        cases hread
        exact ⟨⟨Nat.le_refl _, hrest.symm, rfl, nofun⟩, rfl⟩
  | cons text rest ih =>
      have hlength := congrArg List.length hrest
      rw [List.length_drop, List.length_cons] at hlength
      have hdrop := drop_succ hrest
      rw [readLines, nextLine_lineAfter]
      split
      · exact ih (by omega) _ hdrop
      next first queue hlocate =>
        have hstands : ∀ token ∈ first :: queue, StandsOn lines offset (count + 1) token := by
          intro token htoken
          rw [← hlocate] at htoken
          exact standsOn_of_mem_locate hrest htoken
        obtain ⟨hfirst, hqueue⟩ := List.forall_mem_cons.mp hstands
        constructor
        · rintro token after hread
          cases hread
          exact ⟨count + 1, ⟨by omega, hdrop.symm, rfl, hqueue⟩, hfirst⟩
        · rintro after hread
          cases hread

/-- A token that is taken stands on the last line read. -/
theorem HasRead.next_some {stream after : TokenStream} (hread : stream.HasRead lines offset count)
    {token : Token} (hnext : stream.next = (some token, after)) :
    after.ReadUpTo lines offset token := by
  rw [next] at hnext
  split at hnext
  next first queue hqueue =>
    cases hnext
    have hstands := hread.queue
    rw [hqueue] at hstands
    obtain ⟨hfirst, hothers⟩ := List.forall_mem_cons.mp hstands
    exact ⟨count, ⟨hread.count_le, hread.lines_eq, hread.lineNumber_eq, hothers⟩, hfirst⟩
  · rw [hread.lineNumber_eq, hread.lines_eq] at hnext
    exact (hasRead_readLines hread.count_le _).1 token after hnext

/-- Without a token left all lines have been read. -/
theorem HasRead.next_none {stream after : TokenStream} (hread : stream.HasRead lines offset count)
    (hnext : stream.next = (none, after)) :
    after.HasRead lines offset lines.length ∧ after.next = (none, after) := by
  rw [next] at hnext
  split at hnext
  · cases hnext
  · rw [hread.lineNumber_eq, hread.lines_eq] at hnext
    obtain ⟨hall, hempty⟩ := (hasRead_readLines hread.count_le _).2 after hnext
    refine ⟨hall, ?_⟩
    have hlines := hall.lines_eq
    rw [List.drop_length] at hlines
    rw [next, hempty]
    rcases after with ⟨_, lineNumber, inComment, _⟩
    subst hlines hempty
    rfl

theorem HasRead.next {stream : TokenStream} (hread : stream.HasRead lines offset count) :
    ∃ read, stream.next.2.HasRead lines offset read := by
  cases hnext : stream.next with
  | mk token? after =>
      cases token? with
      | none => exact ⟨lines.length, (hread.next_none hnext).1⟩
      | some token =>
          obtain ⟨read, hafter, -⟩ := hread.next_some hnext
          exact ⟨read, hafter⟩

/-! ## Streams whose count does not start over -/

/-- Whether all lines that a stream has left to read have numbers below the bound. -/
def Bounded (stream : TokenStream) : Prop :=
  stream.lineNumber + stream.lines.length < Json.natBound

/-- Reading lines below the bound counts them. -/
private theorem lineNumber_readLines {lineNumber : Nat} {lines : List String}
    (hbound : lineNumber + lines.length < Json.natBound) (inComment : Bool) :
    lineNumber ≤ (readLines lineNumber inComment lines).2.lineNumber ∧
      (readLines lineNumber inComment lines).2.lineNumber +
        (readLines lineNumber inComment lines).2.lines.length = lineNumber + lines.length := by
  induction lines generalizing lineNumber inComment with
  | nil => exact ⟨Nat.le_refl _, rfl⟩
  | cons text rest ih =>
      rw [List.length_cons] at hbound ⊢
      have hrest : lineNumber + 1 + rest.length < Json.natBound := by omega
      rw [readLines, nextLine_eq_add_one (by omega)]
      split
      · obtain ⟨hle, hsum⟩ := ih hrest (Scan.line inComment text).inComment
        exact ⟨by omega, by omega⟩
      · exact ⟨Nat.le_succ _, Nat.add_right_comm _ _ _⟩

/-- Lines are read downwards. -/
theorem Bounded.lineNumber_le_next {stream : TokenStream} (hbounded : stream.Bounded) :
    stream.lineNumber ≤ stream.next.2.lineNumber := by
  rw [next]
  split
  · exact Nat.le_refl _
  · exact (lineNumber_readLines hbounded _).1

theorem Bounded.next {stream : TokenStream} (hbounded : stream.Bounded) :
    stream.next.2.Bounded := by
  rw [TokenStream.next]
  split
  · exact hbounded
  · exact Nat.lt_of_le_of_lt (Nat.le_of_eq (lineNumber_readLines hbounded _).2) hbounded

theorem HasRead.lineNumber_eq_add {stream : TokenStream}
    (hread : stream.HasRead lines offset count) (hbound : offset + count < Json.natBound) :
    stream.lineNumber = offset + count :=
  hread.lineNumber_eq.trans (lineAfter_eq_add hbound)

theorem HasRead.bounded {stream : TokenStream} (hread : stream.HasRead lines offset count)
    (hbound : offset + lines.length < Json.natBound) : stream.Bounded := by
  have hcount := hread.count_le
  rw [Bounded, hread.lineNumber_eq_add (by omega), hread.lines_eq, List.length_drop]
  omega

/-! ## Several calls -/

/-- The stream after some calls for tokens. -/
def after (stream : TokenStream) : Nat → TokenStream
  | 0 => stream
  | calls + 1 => stream.next.2.after calls

theorem HasRead.after {stream : TokenStream} (hread : stream.HasRead lines offset count)
    (calls : Nat) : ∃ read, (stream.after calls).HasRead lines offset read := by
  induction calls generalizing stream count with
  | zero => exact ⟨count, hread⟩
  | succ calls ih =>
      obtain ⟨read, hlater⟩ := hread.next
      exact ih hlater

theorem Bounded.after {stream : TokenStream} (hbounded : stream.Bounded) (calls : Nat) :
    (stream.after calls).Bounded := by
  induction calls generalizing stream with
  | zero => exact hbounded
  | succ calls ih => exact ih hbounded.next

end TokenStream

end SignalScript
