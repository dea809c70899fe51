import SignalScript.Proofs.Token.Names

/-!
# Texts cut into lexemes

A text can be cut into lexemes so that each is the longest one that fits, and in one way
only.  To see that lexemes are cut so it is enough to look at two neighbours at a time:
an operator without its last character is one again, so if a longer one fitted it would
show at the next character, and nothing but a mark of punctuation or an operator ends a
value.
-/

namespace SignalScript

/-- Whether a character can belong to a value. -/
structure IsValueChar (c : Char) : Prop where
  punctuation : TokenKind.ofPunctuation? c = none
  operator : c ∉ operatorChars

theorem PlainChar.isValueChar {c : Char} (hplain : PlainChar c) : IsValueChar c :=
  ⟨hplain.punctuation, hplain.operator⟩

/-- Whether a lexeme other than a line end is one that the language has. -/
inductive Lexeme.WellSpelled : Lexeme → Prop
  | punctuation {c : Char} {kind : TokenKind} (hkind : TokenKind.ofPunctuation? c = some kind) :
      WellSpelled ⟨kind, c.toString⟩
  | value {text : String} (hne : text ≠ "") (hchars : ∀ c ∈ text.toList, IsValueChar c) :
      WellSpelled ⟨.value, text⟩
  | operator {text : String} (hsymbol : text ∈ symbols) : WellSpelled ⟨.operator, text⟩

/-- Whether two lexemes that stand side by side would not be read as one: they are not
both values, and the second operator does not begin with a character that the first goes
on with. -/
structure Lexeme.Apart (left right : Lexeme) : Prop where
  values : ¬ (left.kind = .value ∧ right.kind = .value)
  operators : left.kind = .operator → right.kind = .operator →
    ∀ c, right.text.toList.head? = some c → left.text.push c ∉ compoundOperators

namespace Scan

/-- Whether lexemes are a text cut without a gap, and no two of them belong together. -/
structure Segments (text : List Char) (lexemes : List Lexeme) : Prop where
  characters : lexemes.flatMap (·.text.toList) = text
  wellSpelled : ∀ lexeme ∈ lexemes, lexeme.WellSpelled
  apart : ∀ left right, [left, right] <:+: lexemes → left.Apart right

/-- Whether lexemes are a text cut without a gap, each of them the longest that the rest
of the text begins with. -/
inductive LongestMatch : List Char → List Lexeme → Prop
  | nil : LongestMatch [] []
  | cons {lexeme : Lexeme} {rest : List Char} {lexemes : List Lexeme}
      (hspelled : lexeme.WellSpelled)
      (hlongest : ∀ other : Lexeme, other.WellSpelled →
        other.text.toList <+: lexeme.text.toList ++ rest →
          other.text.toList.length ≤ lexeme.text.toList.length)
      (hrest : LongestMatch rest lexemes) :
      LongestMatch (lexeme.text.toList ++ rest) (lexeme :: lexemes)

end Scan

/-! ## Operators -/

/-- Operators are spelled with operator characters, none of which is punctuation. -/
theorem operatorChars_of_symbols : ∀ text ∈ symbols, text.toList ≠ [] ∧
    ∀ c ∈ text.toList, c ∈ operatorChars ∧ TokenKind.ofPunctuation? c = none := by
  have hall : ∀ text ∈ symbols, text.toList ≠ [] ∧ (text.toList.all fun c =>
      decide (c ∈ operatorChars ∧ TokenKind.ofPunctuation? c = none)) = true := by
    decide
  intro text hsymbol
  obtain ⟨hne, hchars⟩ := hall text hsymbol
  exact ⟨hne, fun c hmem => of_decide_eq_true (List.all_eq_true.mp hchars c hmem)⟩

/-- An operator goes on with operator characters only. -/
theorem operatorChar_of_push {text : String} {c : Char}
    (hcompound : text.push c ∈ compoundOperators) :
    c ∈ operatorChars ∧ TokenKind.ofPunctuation? c = none := by
  have hchars := (operatorChars_of_symbols _ (List.mem_append_right _ hcompound)).2
  exact hchars c (by simp)

/-- What an operator begins with is an operator again. -/
private theorem take_of_symbols : ∀ text ∈ symbols, ∀ count ≤ text.toList.length, 2 ≤ count →
    String.ofList (text.toList.take count) ∈ compoundOperators := by
  decide

/-- A longer operator goes on with a character that makes an operator already. -/
private theorem push_of_longer {text other : String} (hother : other ∈ symbols) {c : Char}
    {more : List Char} (hne : text.toList ≠ [])
    (hlonger : other.toList = text.toList ++ c :: more) : text.push c ∈ compoundOperators := by
  have hpositive := List.length_pos_iff.mpr hne
  have htake : other.toList.take (text.toList.length + 1) = text.toList ++ [c] := by
    rw [hlonger, List.take_length_add_append]
    rfl
  have hpush : text.push c = String.ofList (other.toList.take (text.toList.length + 1)) := by
    rw [htake, ← String.toList_inj]
    simp
  rw [hpush]
  apply take_of_symbols other hother
  · rw [hlonger, List.length_append, List.length_cons]
    omega
  · omega

namespace Lexeme

/-! ## What a lexeme begins with -/

theorem WellSpelled.text_ne_nil {lexeme : Lexeme} (hspelled : lexeme.WellSpelled) :
    lexeme.text.toList ≠ [] := by
  cases hspelled with
  | punctuation hkind => simp
  | value hne hchars => simpa using hne
  | operator hsymbol => exact (operatorChars_of_symbols _ hsymbol).1

section Head

variable {lexeme : Lexeme} {c : Char}

theorem WellSpelled.eq_of_punctuation {kind : TokenKind} (hspelled : lexeme.WellSpelled)
    (hhead : lexeme.text.toList.head? = some c)
    (hkind : TokenKind.ofPunctuation? c = some kind) : lexeme = ⟨kind, c.toString⟩ := by
  have hmem := List.mem_of_head? hhead
  cases hspelled with
  | @punctuation other _ hother =>
      obtain rfl : other = c := by simpa using hhead
      rw [hother] at hkind
      obtain rfl := Option.some.inj hkind
      rfl
  | value hne hchars => simp [(hchars c hmem).punctuation] at hkind
  | operator hsymbol => simp [((operatorChars_of_symbols _ hsymbol).2 c hmem).2] at hkind

theorem WellSpelled.value_of_isValueChar (hspelled : lexeme.WellSpelled)
    (hhead : lexeme.text.toList.head? = some c) (hvalue : IsValueChar c) :
    lexeme.kind = .value ∧ ∀ other ∈ lexeme.text.toList, IsValueChar other := by
  have hmem := List.mem_of_head? hhead
  cases hspelled with
  | @punctuation other _ hother =>
      obtain rfl : other = c := by simpa using hhead
      simp [hvalue.punctuation] at hother
  | value hne hchars => exact ⟨rfl, hchars⟩
  | operator hsymbol =>
      exact absurd ((operatorChars_of_symbols _ hsymbol).2 c hmem).1 hvalue.operator

theorem WellSpelled.symbol_of_operatorChar (hspelled : lexeme.WellSpelled)
    (hhead : lexeme.text.toList.head? = some c) (hoperator : c ∈ operatorChars) :
    lexeme.kind = .operator ∧ lexeme.text ∈ symbols := by
  have hmem := List.mem_of_head? hhead
  cases hspelled with
  | @punctuation other _ hother =>
      obtain rfl : other = c := by simpa using hhead
      have hnone := Scan.punctuation_of_nameChar (.inr hoperator)
      simp [hnone] at hother
  | value hne hchars => exact absurd hoperator (hchars c hmem).operator
  | operator hsymbol => exact ⟨rfl, hsymbol⟩

end Head

theorem WellSpelled.chars_of_value {lexeme : Lexeme} (hspelled : lexeme.WellSpelled)
    (hkind : lexeme.kind = .value) : ∀ c ∈ lexeme.text.toList, IsValueChar c := by
  cases hspelled with
  | @punctuation c kind hpunctuation =>
      exact absurd hkind (Scan.ne_of_punctuation hpunctuation).1
  | value hne hchars => exact hchars
  | operator hsymbol => cases hkind

/-- Lexemes with the same text are the same. -/
theorem WellSpelled.eq_of_text {left right : Lexeme} (hleft : left.WellSpelled)
    (hright : right.WellSpelled) (htext : left.text = right.text) : left = right := by
  have hkind : right.kind = left.kind := by
    obtain ⟨c, chars, hcons⟩ := List.exists_cons_of_ne_nil hleft.text_ne_nil
    have hhead : right.text.toList.head? = some c := by
      rw [← htext, hcons]
      rfl
    have hmem : c ∈ left.text.toList := by
      rw [hcons]
      exact .head _
    cases hleft with
    | @punctuation other _ hother =>
        obtain rfl : c = other := by simpa using hmem
        rw [hright.eq_of_punctuation hhead hother]
    | value hne hchars => exact (hright.value_of_isValueChar hhead (hchars c hmem)).1
    | operator hsymbol =>
        have hoperator := ((operatorChars_of_symbols _ hsymbol).2 c hmem).1
        exact (hright.symbol_of_operatorChar hhead hoperator).1
  rcases left with ⟨leftKind, leftText⟩
  rcases right with ⟨rightKind, rightText⟩
  obtain rfl : rightKind = leftKind := hkind
  obtain rfl : leftText = rightText := htext
  rfl

end Lexeme

namespace Scan

/-! ## Longest lexemes -/

/-- A longer text goes on with the next character. -/
private theorem exists_longer {text other rest : List Char} (hbegins : other <+: text ++ rest)
    (hlength : text.length < other.length) :
    ∃ c more, other = text ++ c :: more ∧ rest.head? = some c := by
  obtain ⟨tail, htail⟩ := hbegins
  rcases List.append_eq_append_iff.mp htail with ⟨middle, rfl, -⟩ | ⟨middle, rfl, hrest⟩
  · rw [List.length_append] at hlength
    omega
  · cases middle with
    | nil => simp at hlength
    | cons c more =>
        refine ⟨c, more, rfl, ?_⟩
        rw [hrest]
        rfl

variable {rest : List Char} {lexemes : List Lexeme}

/-- A lexeme is the longest one if none is that text, the next character and more. -/
private theorem LongestMatch.of_ends {lexeme : Lexeme} (hspelled : lexeme.WellSpelled)
    (hends : ∀ other : Lexeme, other.WellSpelled → ∀ c more,
      other.text.toList = lexeme.text.toList ++ c :: more → rest.head? ≠ some c)
    (hrest : LongestMatch rest lexemes) :
    LongestMatch (lexeme.text.toList ++ rest) (lexeme :: lexemes) := by
  refine .cons hspelled ?_ hrest
  intro other hother hbegins
  apply Nat.le_of_not_lt
  intro hlength
  obtain ⟨c, more, hlonger, hhead⟩ := exists_longer hbegins hlength
  exact hends other hother c more hlonger hhead

theorem LongestMatch.punctuation {c : Char} {kind : TokenKind}
    (hkind : TokenKind.ofPunctuation? c = some kind) (hrest : LongestMatch rest lexemes) :
    LongestMatch (c :: rest) (⟨kind, c.toString⟩ :: lexemes) := by
  let lexeme : Lexeme := ⟨kind, c.toString⟩
  have htext : lexeme.text.toList = [c] := by simp [lexeme]
  have hmatch : LongestMatch (lexeme.text.toList ++ rest) (lexeme :: lexemes) := by
    refine LongestMatch.of_ends (.punctuation hkind) ?_ hrest
    intro other hother next more hlonger
    rw [htext] at hlonger
    have hsame := hother.eq_of_punctuation (by rw [hlonger]; rfl) hkind
    rw [hsame] at hlonger
    simp at hlonger
  rwa [htext] at hmatch

theorem LongestMatch.value {text : String} (hne : text ≠ "")
    (hchars : ∀ c ∈ text.toList, IsValueChar c)
    (hends : ∀ c, rest.head? = some c → ¬ IsValueChar c) (hrest : LongestMatch rest lexemes) :
    LongestMatch (text.toList ++ rest) (⟨.value, text⟩ :: lexemes) := by
  let lexeme : Lexeme := ⟨.value, text⟩
  have hspelled : lexeme.WellSpelled := .value hne hchars
  refine LongestMatch.of_ends hspelled ?_ hrest
  intro other hother c more hlonger hhead
  obtain ⟨first, chars, hcons⟩ := List.exists_cons_of_ne_nil hspelled.text_ne_nil
  have hfirst : other.text.toList.head? = some first := by
    rw [hlonger, hcons]
    rfl
  have hmem : first ∈ text.toList := List.mem_of_head? (by rw [hcons]; rfl)
  have hothers := (hother.value_of_isValueChar hfirst (hchars first hmem)).2
  exact hends c hhead (hothers c (by simp [hlonger]))

theorem LongestMatch.operator {text : String} (hsymbol : text ∈ symbols)
    (hends : ∀ c, rest.head? = some c → text.push c ∉ compoundOperators)
    (hrest : LongestMatch rest lexemes) :
    LongestMatch (text.toList ++ rest) (⟨.operator, text⟩ :: lexemes) := by
  let lexeme : Lexeme := ⟨.operator, text⟩
  have hspelled : lexeme.WellSpelled := .operator hsymbol
  refine LongestMatch.of_ends hspelled ?_ hrest
  intro other hother c more hlonger hhead
  obtain ⟨first, chars, hcons⟩ := List.exists_cons_of_ne_nil hspelled.text_ne_nil
  have hfirst : other.text.toList.head? = some first := by
    rw [hlonger, hcons]
    rfl
  have hmem : first ∈ text.toList := List.mem_of_head? (by rw [hcons]; rfl)
  have hoperator := ((operatorChars_of_symbols _ hsymbol).2 first hmem).1
  have hothers := (hother.symbol_of_operatorChar hfirst hoperator).2
  exact hends c hhead (push_of_longer hothers hspelled.text_ne_nil hlonger)

/-- A text is cut in one way. -/
theorem LongestMatch.unique {text : List Char} {left right : List Lexeme}
    (hleft : LongestMatch text left) (hright : LongestMatch text right) : left = right := by
  generalize htext : text = other at hright
  induction hleft generalizing right other with
  | nil =>
      cases hright with
      | nil => rfl
      | cons hspelled => simp [hspelled.text_ne_nil] at htext
  | @cons lexeme rest lexemes hspelled hlongest hrest ih =>
      cases hright with
      | nil => simp [hspelled.text_ne_nil] at htext
      | @cons other others _ hother hotherLongest hothers =>
          have hlength : lexeme.text.toList.length = other.text.toList.length := by
            apply Nat.le_antisymm
            · exact hotherLongest lexeme hspelled (by rw [← htext]; exact List.prefix_append _ _)
            · exact hlongest other hother (by rw [htext]; exact List.prefix_append _ _)
          obtain ⟨hsame, hbehind⟩ := List.append_inj htext hlength
          obtain rfl := hspelled.eq_of_text hother (String.toList_inj.mp hsame)
          rw [ih _ hbehind hothers]

/-- Two lexemes side by side are apart if the first is the longest that fits. -/
private theorem apart_of_longest {left right : Lexeme} (hleft : left.WellSpelled)
    (hright : right.WellSpelled) {rest : List Char}
    (hlongest : ∀ other : Lexeme, other.WellSpelled →
      other.text.toList <+: left.text.toList ++ (right.text.toList ++ rest) →
        other.text.toList.length ≤ left.text.toList.length) : left.Apart right := by
  have hlength := List.length_pos_iff.mpr hright.text_ne_nil
  constructor
  case values =>
    rintro ⟨hleftKind, hrightKind⟩
    -- Both texts together would be a value.
    let both : Lexeme := ⟨.value, left.text ++ right.text⟩
    have htext : both.text.toList = left.text.toList ++ right.text.toList :=
      String.toList_append
    have hboth : both.WellSpelled := by
      refine .value ?_ ?_
      · intro hempty
        have hnil := htext.symm.trans (String.toList_eq_nil_iff.mpr hempty)
        exact hright.text_ne_nil (List.append_eq_nil_iff.mp hnil).2
      · rw [String.toList_append]
        exact List.forall_mem_append.mpr
          ⟨hleft.chars_of_value hleftKind, hright.chars_of_value hrightKind⟩
    have hbegins : both.text.toList <+: left.text.toList ++ (right.text.toList ++ rest) := by
      rw [htext, ← List.append_assoc]
      exact List.prefix_append _ _
    have hle := hlongest both hboth hbegins
    rw [htext, List.length_append] at hle
    omega
  case operators =>
    intro _ _ c hhead hcompound
    let longer : Lexeme := ⟨.operator, left.text.push c⟩
    have htext : longer.text.toList = left.text.toList ++ [c] := String.toList_push ..
    have hlonger : longer.WellSpelled := .operator (List.mem_append_right _ hcompound)
    obtain ⟨chars, hcons⟩ := List.head?_eq_some_iff.mp hhead
    have hle := hlongest longer hlonger ⟨chars ++ rest, by rw [htext, hcons]; simp⟩
    rw [htext, List.length_append, List.length_singleton] at hle
    omega

/-- Lexemes that are each the longest leave no gap and do not belong together. -/
theorem LongestMatch.segments {text : List Char} {lexemes : List Lexeme}
    (hmatch : LongestMatch text lexemes) : Segments text lexemes := by
  induction hmatch with
  | nil => exact ⟨rfl, nofun, by simp⟩
  | @cons lexeme rest lexemes hspelled hlongest hrest ih =>
      constructor
      case characters => rw [List.flatMap_cons, ih.characters]
      case wellSpelled => exact List.forall_mem_cons.mpr ⟨hspelled, ih.wellSpelled⟩
      case apart =>
        intro left right hbetween
        rcases List.infix_cons_iff.mp hbetween with hbegins | hinside
        · obtain ⟨rfl, hsecond⟩ := List.cons_prefix_cons.mp hbegins
          cases hrest with
          | nil => simp at hsecond
          | cons hother _ _ =>
              obtain ⟨rfl, -⟩ := List.cons_prefix_cons.mp hsecond
              exact apart_of_longest hspelled hother hlongest
        · exact ih.apart left right hinside

/-- A lexeme that is apart from the next one is the longest that fits. -/
theorem Segments.longestMatch {text : List Char} {lexemes : List Lexeme}
    (hsegments : Segments text lexemes) : LongestMatch text lexemes := by
  induction lexemes generalizing text with
  | nil =>
      obtain rfl : text = [] := hsegments.characters.symm
      exact .nil
  | cons lexeme lexemes ih =>
      obtain ⟨hspelled, hothers⟩ := List.forall_mem_cons.mp hsegments.wellSpelled
      have hrest : Segments (lexemes.flatMap (·.text.toList)) lexemes :=
        ⟨rfl, hothers, fun left right hbetween => hsegments.apart left right
          (hbetween.trans (List.suffix_cons _ _).isInfix)⟩
      -- What follows begins with the next lexeme.
      have hnext : ∀ c, (lexemes.flatMap (·.text.toList)).head? = some c →
          ∃ next, next.WellSpelled ∧ lexeme.Apart next ∧ next.text.toList.head? = some c := by
        intro c hhead
        cases lexemes with
        | nil => simp at hhead
        | cons next lexemes =>
            refine ⟨next, hothers next (.head _), hsegments.apart lexeme next ?_, ?_⟩
            · exact (List.prefix_append [lexeme, next] lexemes).isInfix
            · obtain ⟨first, chars, hcons⟩ :=
                List.exists_cons_of_ne_nil (hothers next (.head _)).text_ne_nil
              rw [List.flatMap_cons, hcons] at hhead
              rw [hcons]
              exact hhead
      rw [← hsegments.characters, List.flatMap_cons]
      cases hspelled with
      | punctuation hkind =>
          have hmatch := LongestMatch.punctuation hkind (ih hrest)
          simpa using hmatch
      | value hne hchars =>
          refine LongestMatch.value hne hchars ?_ (ih hrest)
          intro c hhead hvalue
          obtain ⟨next, hspelled, hapart, hnextHead⟩ := hnext c hhead
          exact hapart.values ⟨rfl, (hspelled.value_of_isValueChar hnextHead hvalue).1⟩
      | @operator text hsymbol =>
          refine LongestMatch.operator hsymbol ?_ (ih hrest)
          intro c hhead hcompound
          obtain ⟨next, hspelled, hapart, hnextHead⟩ := hnext c hhead
          have hoperator := (operatorChar_of_push hcompound).1
          have hkind := (hspelled.symbol_of_operatorChar hnextHead hoperator).1
          exact hapart.operators rfl hkind c hnextHead hcompound

end Scan

end SignalScript
