import SignalScript.Proofs.Token.Spelling

/-!
# Names

A name is put together from values and operators, and what stood between them is
gone.  Scanned on its own it gives the same characters again, unless two of them
begin a comment: then something of it is lost.
-/

namespace SignalScript

/-- A character of the name of a script. -/
def IsNameChar (c : Char) : Prop := WordChar c ∨ c ∈ operatorChars

theorem feed_not_nameChar : ¬ IsNameChar '\n' := by
  rintro (hword | hoperator)
  · exact hword.feed rfl
  · revert hoperator
    decide

/-- Whether a comment begins in a text. -/
def BeginsComment (text : List Char) : Prop :=
  ['/', '/'] <:+: text ∨ ['/', '*'] <:+: text

namespace Scan

/-- The text that is being collected. -/
def Mode.text : Mode → String
  | .word text | .symbol text => text
  | .lineComment | .blockComment _ => ""

/-- The characters of what was found and of what is being collected. -/
def characters (read : List Lexeme × Mode) : List Char :=
  read.1.flatMap (·.text.toList) ++ read.2.text.toList

/-- Whether a comment begins in a text, or with its first character. -/
def Opens (mode : Mode) (text : List Char) : Prop :=
  (mode = .symbol "/" ∧ (text.head? = some '/' ∨ text.head? = some '*')) ∨ BeginsComment text

theorem flatMap_flush (mode : Mode) :
    mode.flush.flatMap (·.text.toList) = mode.text.toList := by
  cases mode with
  | word text => by_cases hempty : text = "" <;> simp [Mode.flush, Mode.text, hempty]
  | symbol text => simp [Mode.flush, Mode.text]
  | lineComment => rfl
  | blockComment star => rfl

theorem characters_append (first : List Lexeme) (read : List Lexeme × Mode) :
    characters (first ++ read.1, read.2) =
      first.flatMap (·.text.toList) ++ characters read := by
  simp [characters]

theorem punctuation_of_nameChar {c : Char} (hname : IsNameChar c) :
    TokenKind.ofPunctuation? c = none := by
  have hoperators :
      (operatorChars.all fun c => decide (TokenKind.ofPunctuation? c = none)) = true := by
    decide
  rcases hname with hword | hoperator
  · exact hword.punctuation
  · exact of_decide_eq_true (List.all_eq_true.mp hoperators c hoperator)

/-- Whether a lexeme is a part of a name. -/
def IsPart (lexeme : Lexeme) : Prop := lexeme.kind = .value ∨ lexeme.kind = .operator

theorem isPart_flush (mode : Mode) : ∀ lexeme ∈ mode.flush, IsPart lexeme := by
  intro lexeme hmem
  cases mode with
  | word text =>
      by_cases hempty : text = ""
      · simp [Mode.flush, hempty] at hmem
      · simp only [Mode.flush, hempty, if_false, List.mem_singleton] at hmem
        exact .inl (by rw [hmem])
  | symbol text =>
      simp only [Mode.flush, List.mem_singleton] at hmem
      exact .inr (by rw [hmem])
  | lineComment => simp [Mode.flush] at hmem
  | blockComment star => simp [Mode.flush] at hmem

/-- What reading a character of a name gives where no comment begins or goes on. -/
structure Collects (mode : Mode) (c : Char) (read : List Lexeme × Mode) : Prop where
  outside : read.2.isComment = false
  characters : characters read = mode.text.toList ++ [c]
  slash : read.2 = .symbol "/" ↔ c = '/'

theorem collects_begin {mode : Mode} (houtside : mode.isComment = false) {c : Char}
    (hname : IsNameChar c) : Collects mode c (begin mode c) := by
  unfold begin
  rw [punctuation_of_nameChar hname]
  by_cases hoperator : c ∈ operatorChars
  · simp only [if_pos hoperator]
    refine ⟨rfl, ?_, ?_⟩
    · simp [characters, flatMap_flush, Mode.text]
    · constructor
      · intro hsymbol
        have htext := congrArg String.toList (Mode.symbol.inj hsymbol)
        simpa using htext
      · rintro rfl
        rfl
  · have hword := hname.resolve_right hoperator
    have hslash : c ≠ '/' := by
      rintro rfl
      exact hoperator (by decide)
    simp only [if_neg hoperator, hword.upper]
    cases mode with
    | word text =>
        refine ⟨rfl, ?_, by simp [hslash]⟩
        simp [characters, Mode.text]
    | symbol text =>
        refine ⟨rfl, ?_, by simp [hslash]⟩
        simp [characters, Mode.text, Mode.flush]
    | lineComment => simp [Mode.isComment] at houtside
    | blockComment star => simp [Mode.isComment] at houtside

private theorem slash_compoundOperators : ∀ text ∈ compoundOperators,
    text ≠ "/" ∧ text.toList.getLast? ≠ some '/' := by
  decide

theorem collects_step {mode : Mode} (houtside : mode.isComment = false) {c : Char}
    (hname : IsNameChar c) (hopens : ¬ (mode = .symbol "/" ∧ (c = '/' ∨ c = '*'))) :
    Collects mode c (step mode c) := by
  cases mode with
  | word text => exact collects_begin houtside hname
  | symbol text =>
      have hcollects := collects_begin houtside hname
      have hslash : ¬ (text = "/" ∧ c = '/') := by
        rintro ⟨rfl, heq⟩
        exact hopens ⟨rfl, .inl heq⟩
      have hstar : ¬ (text = "/" ∧ c = '*') := by
        rintro ⟨rfl, heq⟩
        exact hopens ⟨rfl, .inr heq⟩
      simp only [step, if_neg hslash, if_neg hstar]
      by_cases hcompound : text.push c ∈ compoundOperators
      · obtain ⟨hne, hlast⟩ := slash_compoundOperators _ hcompound
        have hsymbol : c ≠ '/' := by
          rintro rfl
          simp at hlast
        rw [if_pos hcompound]
        refine ⟨rfl, ?_, ?_⟩
        · simp [characters, Mode.text]
        · simp [hne, hsymbol]
      · rw [if_neg hcompound]
        exact hcollects
  | lineComment => simp [Mode.isComment] at houtside
  | blockComment star => simp [Mode.isComment] at houtside

/-- A comment that begins further on begins in what follows. -/
private theorem opens_step {mode : Mode} {c : Char} {rest : List Char}
    (hcollects : Collects mode c (step mode c))
    (hopens : ¬ (mode = .symbol "/" ∧ (c = '/' ∨ c = '*'))) :
    Opens mode (c :: rest) ↔ Opens (step mode c).2 rest := by
  have hfirst : ¬ (mode = .symbol "/" ∧
      ((c :: rest).head? = some '/' ∨ (c :: rest).head? = some '*')) := by
    simpa using hopens
  have hbegins : ∀ other : Char,
      ['/', other] <+: c :: rest ↔ c = '/' ∧ rest.head? = some other := by
    intro other
    cases rest <;> simp [List.cons_prefix_cons, eq_comm]
  rw [Opens, or_iff_right hfirst, Opens, hcollects.slash, BeginsComment, BeginsComment,
    List.infix_cons_iff, List.infix_cons_iff, hbegins, hbegins, or_or_or_comm, ← and_or_left]

private theorem characters_cons {mode : Mode} {c : Char} (hcollects : Collects mode c (step mode c))
    {rest : List Char} {last : List Char}
    (hrest : characters (run (step mode c).2 rest) = (step mode c).2.text.toList ++ last) :
    characters (run mode (c :: rest)) = mode.text.toList ++ c :: last := by
  have hstep := hcollects.characters
  rw [characters] at hstep
  rw [run_cons, characters_append, hrest, ← List.append_assoc, hstep, List.append_assoc]
  rfl

/-- Characters of a name in which no comment begins are all found again. -/
theorem characters_run {mode : Mode} (houtside : mode.isComment = false) {text : List Char}
    (hname : ∀ c ∈ text, IsNameChar c) (hopens : ¬ Opens mode text) :
    (run mode text).2.isComment = false ∧
      characters (run mode text) = mode.text.toList ++ text := by
  induction text generalizing mode with
  | nil => simp [houtside, characters]
  | cons c rest ih =>
      have hfirst : ¬ (mode = .symbol "/" ∧ (c = '/' ∨ c = '*')) := by
        intro hbegins
        exact hopens (.inl (by simpa using hbegins))
      have hcollects := collects_step houtside (hname c (.head _)) hfirst
      rw [opens_step hcollects hfirst] at hopens
      obtain ⟨hlast, hrest⟩ :=
        ih hcollects.outside (fun other hother => hname other (.tail _ hother)) hopens
      exact ⟨hlast, characters_cons hcollects hrest⟩

/-- A character gives no more than itself, and a comment gives nothing. -/
private theorem length_step (mode : Mode) {c : Char} (hname : IsNameChar c) :
    (characters (step mode c)).length ≤ mode.text.toList.length + 1 := by
  cases houtside : mode.isComment with
  | false =>
      by_cases hopens : mode = .symbol "/" ∧ (c = '/' ∨ c = '*')
      · obtain ⟨rfl, rfl | rfl⟩ := hopens <;> decide
      · rw [(collects_step houtside hname hopens).characters, List.length_append]
        exact Nat.le_refl _
  | true =>
      cases mode with
      | word text => simp [Mode.isComment] at houtside
      | symbol text => simp [Mode.isComment] at houtside
      | lineComment => simp [step, characters, Mode.text]
      | blockComment star =>
          simp only [step]
          split <;> simp [characters, Mode.text]

theorem length_run (mode : Mode) {text : List Char} (hname : ∀ c ∈ text, IsNameChar c) :
    (characters (run mode text)).length ≤ mode.text.toList.length + text.length := by
  induction text generalizing mode with
  | nil => simp [characters]
  | cons c rest ih =>
      have hfirst := length_step mode (hname c (.head _))
      have hothers := ih (step mode c).2 fun other hother => hname other (.tail _ hother)
      rw [run_cons, characters_append, List.length_append, List.length_cons]
      rw [characters, List.length_append] at hfirst
      omega

/-- Where a comment begins, characters are lost. -/
theorem length_run_lt {mode : Mode} (houtside : mode.isComment = false) {text : List Char}
    (hname : ∀ c ∈ text, IsNameChar c) (hopens : Opens mode text) :
    (characters (run mode text)).length < mode.text.toList.length + text.length := by
  induction text generalizing mode with
  | nil => simp [Opens, BeginsComment] at hopens
  | cons c rest ih =>
      have hothers : ∀ other ∈ rest, IsNameChar other :=
        fun other hother => hname other (.tail _ hother)
      by_cases hfirst : mode = .symbol "/" ∧ (c = '/' ∨ c = '*')
      · have hrest := length_run (step mode c).2 hothers
        have hstep : (characters (step mode c)).length = 0 ∧ mode.text.toList.length = 1 := by
          obtain ⟨rfl, rfl | rfl⟩ := hfirst <;> decide
        rw [characters, List.length_append] at hstep
        rw [run_cons, characters_append, List.length_append, List.length_cons]
        omega
      · have hcollects := collects_step houtside (hname c (.head _)) hfirst
        rw [opens_step hcollects hfirst] at hopens
        have hrest := ih hcollects.outside hothers hopens
        have hstep := congrArg List.length hcollects.characters
        rw [characters, List.length_append, List.length_append, List.length_singleton] at hstep
        rw [run_cons, characters_append, List.length_append, List.length_cons]
        omega

/-- What a character of a name finishes is a part of a name. -/
private theorem isPart_step (mode : Mode) {c : Char} (hname : IsNameChar c) :
    ∀ lexeme ∈ (step mode c).1, IsPart lexeme := by
  have hbegin : ∀ mode : Mode, ∀ lexeme ∈ (begin mode c).1, IsPart lexeme := by
    intro mode
    unfold begin
    rw [punctuation_of_nameChar hname]
    dsimp only
    split
    · exact isPart_flush mode
    · split
      · simp
      · exact isPart_flush _
  unfold step
  split
  · simp
  · split <;> simp
  · split
    · simp
    · split
      · simp
      · split
        · simp
        · exact hbegin _
  · exact hbegin _

theorem isPart_run (mode : Mode) {text : List Char} (hname : ∀ c ∈ text, IsNameChar c) :
    ∀ lexeme ∈ (run mode text).1, IsPart lexeme := by
  induction text generalizing mode with
  | nil => simp
  | cons c rest ih =>
      intro lexeme hmem
      rw [run_cons] at hmem
      rcases List.mem_append.mp hmem with hfirst | hothers
      · exact isPart_step mode (hname c (.head _)) lexeme hfirst
      · exact ih _ (fun other hother => hname other (.tail _ hother)) lexeme hothers

end Scan

end SignalScript
