import SignalScript.Proofs.Comment.Tokens
import SignalScript.Proofs.Token.Segments

/-!
# Longest matches

A line in which no comment begins is cut into lexemes without a gap, and at every place
into the longest one that fits.  The scanner gets there without looking ahead: it only
asks whether what it is collecting goes on with the next character.
-/

namespace SignalScript

namespace Scan

/-- Whether a mode is outside of comments, and what is being collected can become a
lexeme. -/
def Mode.Collecting : Mode → Prop
  | .word text => ∀ c ∈ text.toList, IsValueChar c
  | .symbol text => text ∈ symbols
  | .lineComment | .blockComment _ => False

/-- Whether what is being collected ends before a character. -/
def Mode.EndsBefore (mode : Mode) (c : Char) : Prop :=
  match mode with
  | .word _ => ¬ IsValueChar c
  | .symbol text => text.push c ∉ compoundOperators
  | .lineComment | .blockComment _ => False

theorem collecting_idle : Mode.idle.Collecting := by
  intro c hmem
  simp at hmem

/-- What is being collected is the longest lexeme that fits if it ends before what
follows. -/
theorem longestMatch_flush {mode : Mode} (hmode : mode.Collecting) {rest : List Char}
    {lexemes : List Lexeme} (hends : ∀ c, rest.head? = some c → mode.EndsBefore c)
    (hrest : LongestMatch rest lexemes) :
    LongestMatch (mode.text.toList ++ rest) (mode.flush ++ lexemes) := by
  cases mode with
  | word text =>
      by_cases hempty : text = ""
      · simpa [Mode.text, Mode.flush, hempty] using hrest
      · rw [Mode.flush, if_neg hempty]
        exact LongestMatch.value hempty hmode hends hrest
  | symbol text => exact LongestMatch.operator hmode hends hrest
  | lineComment => exact hmode.elim
  | blockComment star => exact hmode.elim

/-- What reading a character gives: a mode in which something can be collected, and
lexemes that are the longest before whatever is found from there on. -/
structure Advances (mode : Mode) (c : Char) (read : List Lexeme × Mode) : Prop where
  collecting : read.2.Collecting
  slash : read.2 = .symbol "/" → c = '/'
  longest {rest : List Char} {lexemes : List Lexeme}
    (hrest : LongestMatch (read.2.text.toList ++ rest) lexemes) :
    LongestMatch (mode.text.toList ++ (Text.upperCase c ++ rest)) (read.1 ++ lexemes)

/-- What begins with a character that cannot go on an operator ends one. -/
private theorem endsBefore_symbol {text : String} {c : Char} (hvalue : IsValueChar c) :
    (Mode.symbol text).EndsBefore c :=
  fun hcompound => hvalue.operator (operatorChar_of_push hcompound).1

theorem advances_begin {mode : Mode} (hmode : mode.Collecting) {c : Char}
    (hends : ∀ text, mode = .symbol text → text.push c ∉ compoundOperators) :
    Advances mode c (begin mode c) := by
  unfold begin
  split
  next kind hkind =>
    have hbefore : mode.EndsBefore c := by
      cases mode with
      | word text => exact fun hvalue => by simp [hvalue.punctuation] at hkind
      | symbol text => exact hends text rfl
      | lineComment => exact hmode.elim
      | blockComment star => exact hmode.elim
    refine ⟨collecting_idle, by simp, ?_⟩
    intro rest lexemes hrest
    rw [upperCase_of_punctuation hkind, List.append_assoc]
    apply longestMatch_flush hmode
    · rintro first ⟨⟩
      exact hbefore
    · exact LongestMatch.punctuation hkind hrest
  next hpunctuation =>
    split
    next hoperator =>
      have hbefore : mode.EndsBefore c := by
        cases mode with
        | word text => exact fun hvalue => hvalue.operator hoperator
        | symbol text => exact hends text rfl
        | lineComment => exact hmode.elim
        | blockComment star => exact hmode.elim
      have hsymbol : c.toString ∈ symbols :=
        List.mem_append_left _ (List.mem_map_of_mem hoperator)
      refine ⟨hsymbol, ?_, ?_⟩
      · intro hslash
        have htext := congrArg String.toList (Mode.symbol.inj hslash)
        simpa using htext
      · intro rest lexemes hrest
        rw [upperCase_of_mem_operatorChars hoperator]
        apply longestMatch_flush hmode
        · rintro first ⟨⟩
          exact hbefore
        · simpa [Mode.text] using hrest
    next hoperator =>
      obtain ⟨hne, hplain⟩ := PlainChar.of_mem_upperCase hpunctuation hoperator
      have hvalues : ∀ upper ∈ Text.upperCase c, IsValueChar upper :=
        fun upper hmem => (hplain upper hmem).isValueChar
      cases mode with
      | word text =>
          refine ⟨?_, by simp, ?_⟩
          · rw [Mode.Collecting, String.toList_append, String.toList_ofList]
            exact List.forall_mem_append.mpr ⟨hmode, hvalues⟩
          · intro rest lexemes hrest
            simpa [Mode.text] using hrest
      | symbol text =>
          refine ⟨?_, by simp, ?_⟩
          · rw [Mode.Collecting, String.toList_ofList]
            exact hvalues
          · intro rest lexemes hrest
            apply longestMatch_flush hmode
            · intro first hhead
              obtain ⟨upper, others, hcons⟩ := List.exists_cons_of_ne_nil hne
              rw [hcons] at hhead
              obtain rfl : upper = first := by simpa using hhead
              exact endsBefore_symbol (hvalues upper (by simp [hcons]))
            · simpa [Mode.text] using hrest
      | lineComment => exact hmode.elim
      | blockComment star => exact hmode.elim

theorem advances_step {mode : Mode} (hmode : mode.Collecting) {c : Char}
    (hopens : ¬ (mode = .symbol "/" ∧ (c = '/' ∨ c = '*'))) :
    Advances mode c (step mode c) := by
  cases mode with
  | word text => exact advances_begin hmode nofun
  | symbol text =>
      have hslash : ¬ (text = "/" ∧ c = '/') := fun hboth => hopens ⟨by rw [hboth.1], .inl hboth.2⟩
      have hstar : ¬ (text = "/" ∧ c = '*') := fun hboth => hopens ⟨by rw [hboth.1], .inr hboth.2⟩
      simp only [step, if_neg hslash, if_neg hstar]
      split
      next hcompound =>
        refine ⟨List.mem_append_right _ hcompound, ?_, ?_⟩
        · intro hsymbol
          have hslash : "/" ∉ compoundOperators := by decide
          rw [Mode.symbol.inj hsymbol] at hcompound
          exact absurd hcompound hslash
        · intro rest lexemes hrest
          rw [upperCase_of_mem_operatorChars (operatorChar_of_push hcompound).1]
          simpa [Mode.text] using hrest
      next hends =>
        apply advances_begin hmode
        rintro other ⟨⟩
        exact hends
  | lineComment => exact hmode.elim
  | blockComment star => exact hmode.elim

/-- A comment that does not begin in a text does not begin in what is left of it. -/
private theorem not_opens_tail {mode next : Mode} {c : Char} {rest : List Char}
    (hopens : ¬ Opens mode (c :: rest)) (hslash : next = .symbol "/" → c = '/') :
    ¬ Opens next rest := by
  have hbegins : ¬ BeginsComment (c :: rest) := fun hbegins => hopens (.inr hbegins)
  rintro (⟨hnext, hhead⟩ | hbehind)
  · obtain rfl := hslash hnext
    apply hbegins
    rcases hhead with hhead | hhead
    · obtain ⟨chars, rfl⟩ := List.head?_eq_some_iff.mp hhead
      exact .inl (List.prefix_append ['/', '/'] chars).isInfix
    · obtain ⟨chars, rfl⟩ := List.head?_eq_some_iff.mp hhead
      exact .inr (List.prefix_append ['/', '*'] chars).isInfix
  · exact hbegins (hbehind.imp List.infix_cons List.infix_cons)

/-- Where no comment begins, all that is read is cut into the longest lexemes. -/
theorem longestMatch_run {mode : Mode} (hmode : mode.Collecting) {text : List Char}
    (hopens : ¬ Opens mode text) :
    (run mode text).2.Collecting ∧
      LongestMatch (mode.text.toList ++ Text.upperCaseText text)
        ((run mode text).1 ++ (run mode text).2.flush) := by
  -- What is collected and not given yet stands in front of what is left to read.
  induction text generalizing mode with
  | nil =>
      have hlast : LongestMatch (mode.text.toList ++ []) (mode.flush ++ []) :=
        longestMatch_flush hmode nofun .nil
      simpa [hmode] using hlast
  | cons c rest ih =>
      have hfirst : ¬ (mode = .symbol "/" ∧ (c = '/' ∨ c = '*')) := by
        intro hbegins
        exact hopens (.inl (by simpa using hbegins))
      have hadvances := advances_step hmode hfirst
      obtain ⟨hcollecting, hmatch⟩ :=
        ih hadvances.collecting (not_opens_tail hopens hadvances.slash)
      rw [run_cons]
      refine ⟨hcollecting, ?_⟩
      rw [Text.upperCaseText_cons, List.append_assoc]
      exact hadvances.longest hmatch

/-- In a line in which no comment begins, what is found is cut into the longest lexemes. -/
theorem longestMatch_found {text : String}
    (hcomment : ¬ BeginsComment (Text.dropReturn text.toList)) :
    LongestMatch (Text.upperCaseText (Text.dropReturn text.toList)) (found false text) := by
  have hopens : ¬ Opens .idle (Text.dropReturn text.toList) := by
    rintro (⟨hidle, -⟩ | hbegins)
    · cases hidle
    · exact hcomment hbegins
  have hmatch := (longestMatch_run collecting_idle hopens).2
  rwa [Mode.text, String.toList_empty, List.nil_append] at hmatch

end Scan

namespace TokenStream

open Comment (openAfter)

/-- The tokens of a line, but for its end, are what the scanner finds in it. -/
theorem lexemes_of_line (before : List String) (text : String) (after : List String)
    (offset : Nat) :
    ((tokensAt (before ++ text :: after) offset before.length).map Token.lexeme).filter
      (·.kind != .lineEnd) = Scan.found (openAfter false before) text := by
  have hown := tokensAt_eq (before ++ text :: after) offset before.length
  have hline : (before ++ text :: after)[before.length]? = some text := by simp
  rw [hline, List.take_left, Option.map_some, Option.getD_some] at hown
  rw [hown, map_lexeme_locate, Scan.line_eq]
  exact Scan.filter_ne_lineEnd (Scan.found_ne_lineEnd _ text) _

/-- A line that begins outside of comments, and in which none begins, is cut without a gap
into lexemes that do not belong together.  They are each the longest that fits, and no
other lexemes are such a cut. -/
theorem tokens_longestMatch {before : List String} (hopen : openAfter false before = false)
    {text : String} (hcomment : ¬ BeginsComment (Text.dropReturn text.toList))
    (after : List String) (offset : Nat) :
    let upper := Text.upperCaseText (Text.dropReturn text.toList)
    let own := tokensAt (before ++ text :: after) offset before.length
    let lexemes := (own.map Token.lexeme).filter (·.kind != .lineEnd)
    Scan.Segments upper lexemes ∧
      ∀ others, (Scan.LongestMatch upper others ↔ others = lexemes) ∧
        (Scan.Segments upper others ↔ others = lexemes) := by
  intro upper own lexemes
  have hlongest : Scan.LongestMatch upper lexemes := by
    have hfound : lexemes = Scan.found (openAfter false before) text :=
      lexemes_of_line before text after offset
    rw [hfound, hopen]
    exact Scan.longestMatch_found hcomment
  refine ⟨hlongest.segments, ?_⟩
  intro others
  constructor
  · constructor
    · intro hother
      exact hother.unique hlongest
    · rintro rfl
      exact hlongest
  · constructor
    · intro hother
      exact hother.longestMatch.unique hlongest
    · rintro rfl
      exact hlongest.segments

/-- Behind a comment that ends, operators run into each other and `ß` becomes two
letters. -/
theorem tokens_longestMatch_operators :
    openAfter false ["A /* B", "*/ C"] = false ∧
      ¬ BeginsComment (Text.dropReturn "xß===#/#=,y\r".toList) ∧
      Scan.LongestMatch "XSS===#/#=,Y".toList
        [⟨.value, "XSS"⟩, ⟨.operator, "=="⟩, ⟨.operator, "="⟩, ⟨.operator, "#"⟩,
          ⟨.operator, "/#="⟩, ⟨.comma, ","⟩, ⟨.value, "Y"⟩] := by
  have hopen : openAfter false ["A /* B", "*/ C"] = false := by decide +kernel
  have hcomment : ¬ BeginsComment (Text.dropReturn "xß===#/#=,y\r".toList) := by
    unfold BeginsComment
    decide +kernel
  have hlexemes := ((tokens_longestMatch hopen hcomment ["Z"] 4).2
    [⟨.value, "XSS"⟩, ⟨.operator, "=="⟩, ⟨.operator, "="⟩, ⟨.operator, "#"⟩,
      ⟨.operator, "/#="⟩, ⟨.comma, ","⟩, ⟨.value, "Y"⟩]).1
  have hupper : Text.upperCaseText (Text.dropReturn "xß===#/#=,y\r".toList) =
      "XSS===#/#=,Y".toList := by
    decide +kernel
  rw [hupper] at hlexemes
  exact ⟨hopen, hcomment, hlexemes.mpr (by decide +kernel)⟩

end TokenStream

end SignalScript
