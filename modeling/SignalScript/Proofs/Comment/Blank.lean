import SignalScript.Proofs.Text.Lines
import SignalScript.Proofs.Token.Spelling

/-!
# Lines without comments

The comments of lines by a plain reading of the characters: outside of comments two
slashes make the rest of a line a comment, and a slash and a star begin one that ends
with the next star and slash that stand together, on the same line or further down.
A line whose comments are blanked has a space for each of their characters.

The scanner finds comments through the operator that it is collecting.  It finds the
same ones: a line and the line with its comments blanked give the same lexemes, but
for the spaces.
-/

namespace SignalScript

namespace Comment

/-- A line with a space for every character of a comment.  `inside` tells whether a
block comment goes on from the line before. -/
def blankLine : Bool → List Char → List Char
  | _, [] => []
  | false, '/' :: '/' :: rest => ' ' :: ' ' :: rest.map fun _ => ' '
  | false, '/' :: '*' :: rest => ' ' :: ' ' :: blankLine true rest
  | false, c :: rest => c :: blankLine false rest
  | true, '*' :: '/' :: rest => ' ' :: ' ' :: blankLine false rest
  | true, _ :: rest => ' ' :: blankLine true rest

/-- Whether a block comment goes on behind a line. -/
def openBehind : Bool → List Char → Bool
  | inside, [] => inside
  | false, '/' :: '/' :: _ => false
  | false, '/' :: '*' :: rest => openBehind true rest
  | false, _ :: rest => openBehind false rest
  | true, '*' :: '/' :: rest => openBehind false rest
  | true, _ :: rest => openBehind true rest

/-! ## Carriage returns -/

private theorem ne_slash_of_append {rest : List Char} {other : Char} (hother : other ≠ '\r')
    (hrest : ∀ tail, rest ≠ other :: tail) : ∀ tail, rest ++ ['\r'] ≠ other :: tail := by
  intro tail happend
  cases rest with
  | nil => exact hother (List.cons.inj happend).1.symm
  | cons next rest => exact hrest rest (by rw [(List.cons.inj happend).1])

/-- A carriage return at the end of a line is blanked or not, and changes nothing
before it. -/
private theorem blankLine_concat_return (inside : Bool) (line : List Char) :
    (blankLine inside (line ++ ['\r']) = blankLine inside line ++ [' '] ∨
        blankLine inside (line ++ ['\r']) = blankLine inside line ++ ['\r']) ∧
      openBehind inside (line ++ ['\r']) = openBehind inside line := by
  fun_induction blankLine inside line with
  | case1 inside =>
    cases inside with
    | false => exact ⟨.inr (by simp [blankLine]), by simp [openBehind]⟩
    | true => exact ⟨.inl (by simp [blankLine]), by simp [openBehind]⟩
  | case2 rest => exact ⟨.inl (by simp [blankLine]), by simp [openBehind]⟩
  | case3 rest ih => simpa [blankLine, openBehind] using ih
  | case4 c rest hline hblock ih =>
    have hline' : ∀ tail, c = '/' → rest ++ ['\r'] = '/' :: tail → False := fun tail hc =>
      ne_slash_of_append (by decide) (fun tail hrest => hline tail hc hrest) tail
    have hblock' : ∀ tail, c = '/' → rest ++ ['\r'] = '*' :: tail → False := fun tail hc =>
      ne_slash_of_append (by decide) (fun tail hrest => hblock tail hc hrest) tail
    rw [List.cons_append, blankLine, openBehind, openBehind]
    · simpa using ih
    · exact hline
    · exact hblock
    · exact hline'
    · exact hblock'
    · exact hline'
    · exact hblock'
  | case5 rest ih => simpa [blankLine, openBehind] using ih
  | case6 c rest hclose ih =>
    have hclose' : ∀ tail, c = '*' → rest ++ ['\r'] = '/' :: tail → False := fun tail hc =>
      ne_slash_of_append (by decide) (fun tail hrest => hclose tail hc hrest) tail
    rw [List.cons_append, blankLine, openBehind, openBehind]
    · simpa using ih
    · exact hclose
    · exact hclose'
    · exact hclose'

theorem length_blankLine (inside : Bool) (line : List Char) :
    (blankLine inside line).length = line.length := by
  fun_induction blankLine inside line with
  | case1 inside => rfl
  | case2 rest => simp
  | case3 rest ih => simp [ih]
  | case4 c rest hline hblock ih => simp [ih]
  | case5 rest ih => simp [ih]
  | case6 c rest hclose ih => simp [ih]

/-- A character of a blanked line is a space or was there before. -/
private theorem getElem?_blankLine {inside : Bool} {text : List Char} {index : Nat} {c : Char}
    (hfound : (blankLine inside text)[index]? = some c) : c = ' ' ∨ text[index]? = some c := by
  fun_induction blankLine inside text generalizing index with
  | case1 inside => simp at hfound
  | case2 rest =>
    rcases index with _ | _ | index
    · exact .inl (by simpa using hfound.symm)
    · exact .inl (by simpa using hfound.symm)
    · simp only [List.getElem?_cons_succ, List.getElem?_map, Option.map_eq_some_iff] at hfound
      obtain ⟨_, _, rfl⟩ := hfound
      exact .inl rfl
  | case3 rest ih =>
    rcases index with _ | _ | index
    · exact .inl (by simpa using hfound.symm)
    · exact .inl (by simpa using hfound.symm)
    · exact ih hfound
  | case4 d rest hline hblock ih =>
    cases index with
    | zero => exact .inr hfound
    | succ index => exact ih hfound
  | case5 rest ih =>
    rcases index with _ | _ | index
    · exact .inl (by simpa using hfound.symm)
    · exact .inl (by simpa using hfound.symm)
    · exact ih hfound
  | case6 d rest hclose ih =>
    cases index with
    | zero => exact .inl (by simpa using hfound.symm)
    | succ index => exact ih hfound

/-- Blanking a line and dropping its carriage return can be done in either order, but
for a space at the end. -/
theorem dropReturn_blankLine (inside : Bool) (line : List Char) :
    Text.dropReturn (blankLine inside line) = blankLine inside (Text.dropReturn line) ∨
      Text.dropReturn (blankLine inside line) =
        blankLine inside (Text.dropReturn line) ++ [' '] := by
  by_cases hreturn : line.getLast? = some '\r'
  · obtain ⟨front, rfl⟩ := List.getLast?_eq_some_iff.mp hreturn
    rw [Text.dropReturn_concat]
    rcases (blankLine_concat_return inside front).1 with hblank | hkeep
    · exact .inr (by rw [hblank]; simp [Text.dropReturn])
    · exact .inl (by rw [hkeep, Text.dropReturn_concat])
  · have hblank : (blankLine inside line).getLast? ≠ some '\r' := by
      intro hlast
      rw [List.getLast?_eq_getElem?, length_blankLine] at hlast
      rw [List.getLast?_eq_getElem?] at hreturn
      exact (getElem?_blankLine hlast).elim (by decide) hreturn
    exact .inl (by rw [Text.dropReturn, if_neg hblank, Text.dropReturn, if_neg hreturn])

theorem openBehind_dropReturn (inside : Bool) (line : List Char) :
    openBehind inside (Text.dropReturn line) = openBehind inside line := by
  by_cases hreturn : line.getLast? = some '\r'
  · obtain ⟨front, rfl⟩ := List.getLast?_eq_some_iff.mp hreturn
    rw [Text.dropReturn_concat, (blankLine_concat_return inside front).2]
  · rw [Text.dropReturn, if_neg hreturn]

end Comment

/-- Whether lexemes are others with spaces put between them. -/
inductive Lexeme.Spaced : List Lexeme → List Lexeme → Prop
  | nil : Spaced [] []
  | cons {tight loose : List Lexeme} (lexeme : Lexeme) (others : Spaced tight loose) :
      Spaced (lexeme :: tight) (lexeme :: loose)
  | space {tight loose : List Lexeme} (others : Spaced tight loose) :
      Spaced tight (⟨.separator, " "⟩ :: loose)

namespace Lexeme.Spaced

theorem refl (lexemes : List Lexeme) : Spaced lexemes lexemes := by
  induction lexemes with
  | nil => exact .nil
  | cons lexeme rest ih => exact .cons lexeme ih

theorem append {left loose right wide : List Lexeme} (hleft : Spaced left loose)
    (hright : Spaced right wide) : Spaced (left ++ right) (loose ++ wide) := by
  induction hleft with
  | nil => exact hright
  | cons lexeme others ih => exact .cons lexeme ih
  | space others ih => exact .space ih

theorem replicate (count : Nat) : Spaced [] (List.replicate count ⟨.separator, " "⟩) := by
  induction count with
  | zero => exact .nil
  | succ count ih => exact .space ih

theorem eq_nil {tight : List Lexeme} (hspaced : Spaced tight []) : tight = [] := by
  cases hspaced
  rfl

/-- What does not look at spaces finds the same lexemes. -/
theorem filter_eq {tight loose : List Lexeme} (hspaced : Spaced tight loose)
    {keep : Lexeme → Bool} (hspace : keep ⟨.separator, " "⟩ = false) :
    tight.filter keep = loose.filter keep := by
  induction hspaced with
  | nil => rfl
  | cons lexeme others ih => rw [List.filter_cons, List.filter_cons, ih]
  | space others ih => rw [List.filter_cons_of_neg (by simp [hspace]), ih]

end Lexeme.Spaced

namespace Scan

open Comment (blankLine openBehind)
open Lexeme (Spaced)

def Mode.isBlockComment : Mode → Bool
  | .blockComment _ => true
  | _ => false

/-! ## Single characters -/

theorem step_space {mode : Mode} (houtside : mode.isComment = false) :
    step mode ' ' = (mode.flush ++ [⟨.separator, " "⟩], .idle) :=
  step_punctuation houtside rfl

private theorem step_idle_space : step .idle ' ' = ([⟨.separator, " "⟩], .idle) :=
  step_space rfl

theorem run_spaces (count : Nat) :
    run .idle (List.replicate count ' ') =
      (List.replicate count ⟨.separator, " "⟩, .idle) := by
  induction count with
  | zero => rfl
  | succ count ih =>
      rw [List.replicate_succ, run_cons, step_idle_space, ih]
      rfl

theorem run_lineComment (text : List Char) : run .lineComment text = ([], .lineComment) := by
  induction text with
  | nil => rfl
  | cons c rest ih =>
      rw [run_cons, step, ih]
      rfl

/-- No operator goes on with a slash. -/
private theorem push_slash_not_mem (text : String) : text.push '/' ∉ compoundOperators := by
  intro hmem
  have hlast : ∀ compound ∈ compoundOperators, compound.toList.getLast? ≠ some '/' := by
    decide
  exact hlast _ hmem (by simp)

/-- A slash that follows no other begins an operator. -/
private theorem step_slash {mode : Mode} (houtside : mode.isComment = false)
    (hmode : mode ≠ .symbol "/") : step mode '/' = (mode.flush, .symbol "/") := by
  cases mode with
  | word text => rfl
  | symbol text =>
      have htext : text ≠ "/" := by
        rintro rfl
        exact hmode rfl
      simp only [step, htext, false_and, if_false, push_slash_not_mem text]
      rfl
  | lineComment => simp [Mode.isComment] at houtside
  | blockComment star => simp [Mode.isComment] at houtside

private theorem step_begins :
    step (.symbol "/") '/' = ([], .lineComment) ∧
      step (.symbol "/") '*' = ([], .blockComment false) := by
  decide

/-- A character that begins no comment leads to a slash only if it is one. -/
private theorem step_outside {mode : Mode} (houtside : mode.isComment = false) {c : Char}
    (hopens : ¬ (mode = .symbol "/" ∧ (c = '/' ∨ c = '*'))) :
    (step mode c).2.isComment = false ∧ ((step mode c).2 = .symbol "/" → c = '/') := by
  have hbegin : (begin mode c).2.isComment = false ∧
      ((begin mode c).2 = .symbol "/" → c = '/') := by
    unfold begin
    split
    · exact ⟨rfl, by simp⟩
    · split
      · refine ⟨rfl, fun hsymbol => ?_⟩
        have htext := congrArg String.toList (Mode.symbol.inj hsymbol)
        simpa using htext
      · split
        · exact ⟨rfl, by simp⟩
        · exact ⟨rfl, by simp⟩
  cases mode with
  | word text => exact hbegin
  | symbol text =>
      have hslash : ¬ (text = "/" ∧ c = '/') := fun h => hopens ⟨by rw [h.1], .inl h.2⟩
      have hstar : ¬ (text = "/" ∧ c = '*') := fun h => hopens ⟨by rw [h.1], .inr h.2⟩
      simp only [step, if_neg hslash, if_neg hstar]
      split
      next hcompound =>
        refine ⟨rfl, fun hsymbol => ?_⟩
        have hslash : "/" ∉ compoundOperators := by decide
        rw [Mode.symbol.inj hsymbol] at hcompound
        exact absurd hcompound hslash
      next => exact hbegin
  | lineComment => simp [Mode.isComment] at houtside
  | blockComment star => simp [Mode.isComment] at houtside

/-! ## Lines -/

/-- What a run over text, and one over the text with its comments blanked, have in
common. -/
structure Blanked (inside : Bool) (text : List Char) (source blanked : List Lexeme × Mode) :
    Prop where
  spaced : Spaced (source.1 ++ source.2.flush) (blanked.1 ++ blanked.2.flush)
  outside : blanked.2.isComment = false
  ending : source.2.isBlockComment = openBehind inside text

/-- More lexemes in front. -/
private theorem Blanked.prepend {inside before : Bool} {rest text : List Char}
    {source blanked : List Lexeme × Mode} (hrest : Blanked inside rest source blanked)
    (hopen : openBehind before text = openBehind inside rest) {front wide : List Lexeme}
    (hfront : Spaced front wide) :
    Blanked before text (front ++ source.1, source.2) (wide ++ blanked.1, blanked.2) where
  spaced := by
    simp only [List.append_assoc]
    exact hfront.append hrest.spaced
  outside := hrest.outside
  ending := hrest.ending.trans hopen.symm

/-- The modes in which a text and the text with its comments blanked are read on.  A
comment cannot begin, or end, between the character before and the next one. -/
inductive Shadows : Bool → Mode → Mode → List Char → Prop
  | outside {mode : Mode} {text : List Char} (houtside : mode.isComment = false)
      (hopens : mode = .symbol "/" → text.head? ≠ some '/' ∧ text.head? ≠ some '*') :
      Shadows false mode mode text
  | inside {star : Bool} {text : List Char} (hcloses : star = true → text.head? ≠ some '/') :
      Shadows true (.blockComment star) .idle text

private theorem blanked_lineComment {mode : Mode} {rest : List Char}
    (houtside : mode.isComment = false) (hmode : mode ≠ .symbol "/") :
    Blanked false ('/' :: '/' :: rest) (run mode ('/' :: '/' :: rest))
      (run mode (' ' :: ' ' :: rest.map fun _ => ' ')) := by
  have hsource : run mode ('/' :: '/' :: rest) = (mode.flush, .lineComment) := by
    rw [run_cons, step_slash houtside hmode, run_cons, step_begins.1, run_lineComment]
    simp
  have hblanked : run mode (' ' :: ' ' :: rest.map fun _ => ' ') =
      (mode.flush ++ List.replicate (rest.length + 2) ⟨.separator, " "⟩, .idle) := by
    rw [List.map_const', ← List.replicate_succ, run_cons, step_space houtside, run_spaces]
    simp [List.replicate_succ]
  rw [hsource, hblanked]
  refine ⟨?_, rfl, by simp [Mode.isBlockComment, openBehind]⟩
  have hspaced := (Spaced.refl mode.flush).append (Spaced.replicate (rest.length + 2))
  simpa [Mode.flush] using hspaced

/-- A text and the text with its comments blanked. -/
theorem blanked_run {inside : Bool} {mode shadow : Mode} {text : List Char}
    (hshadows : Shadows inside mode shadow text) :
    Blanked inside text (run mode text) (run shadow (blankLine inside text)) := by
  fun_induction blankLine inside text generalizing mode shadow with
  | case1 inside =>
    cases hshadows with
    | outside houtside hopens =>
        refine ⟨Spaced.refl _, houtside, ?_⟩
        cases mode with
        | word text => rfl
        | symbol text => rfl
        | lineComment => rfl
        | blockComment star => simp [Mode.isComment] at houtside
    | inside hcloses => exact ⟨.nil, rfl, rfl⟩
  | case2 rest =>
    cases hshadows with
    | outside houtside hopens =>
        exact blanked_lineComment houtside fun hmode => (hopens hmode).1 rfl
  | case3 rest ih =>
    cases hshadows with
    | outside houtside hopens =>
        have hmode : mode ≠ .symbol "/" := fun hmode => (hopens hmode).1 rfl
        have hinside : Shadows true (.blockComment false) .idle rest := .inside (by simp)
        have hrest := ih hinside
        have hsource : run mode ('/' :: '*' :: rest) =
            (mode.flush ++ (run (.blockComment false) rest).1,
              (run (.blockComment false) rest).2) := by
          rw [run_cons, step_slash houtside hmode, run_cons, step_begins.2]
          rfl
        have hblanked : run mode (' ' :: ' ' :: blankLine true rest) =
            (mode.flush ++ [⟨.separator, " "⟩, ⟨.separator, " "⟩] ++
                (run .idle (blankLine true rest)).1,
              (run .idle (blankLine true rest)).2) := by
          simp [run_cons, step_space houtside, step_idle_space]
        rw [hsource, hblanked]
        have hfront := (Spaced.refl mode.flush).append (.space (.space .nil))
        rw [List.append_nil] at hfront
        exact hrest.prepend (by rw [openBehind]) hfront
  | case4 c rest hline hblock ih =>
    cases hshadows with
    | outside houtside hopens =>
        have hnot : ¬ (mode = .symbol "/" ∧ (c = '/' ∨ c = '*')) := by
          rintro ⟨hmode, rfl | rfl⟩
          · exact (hopens hmode).1 rfl
          · exact (hopens hmode).2 rfl
        obtain ⟨hcomment, hslash⟩ := step_outside houtside hnot
        have hrest := ih (.outside hcomment fun hsymbol => by
          obtain rfl := hslash hsymbol
          constructor
          · intro hhead
            obtain ⟨tail, rfl⟩ := List.head?_eq_some_iff.mp hhead
            exact hline tail rfl rfl
          · intro hhead
            obtain ⟨tail, rfl⟩ := List.head?_eq_some_iff.mp hhead
            exact hblock tail rfl rfl)
        rw [run_cons, run_cons]
        refine hrest.prepend ?_ (Spaced.refl _)
        rw [openBehind]
        · exact hline
        · exact hblock
  | case5 rest ih =>
    cases hshadows with
    | @inside star _ hcloses =>
        have houtside : Shadows false .idle .idle rest := .outside rfl (by simp)
        have hrest := ih houtside
        have hsource : run (.blockComment star) ('*' :: '/' :: rest) = run .idle rest := by
          simp [run_cons, step]
        have hblanked : run .idle (' ' :: ' ' :: blankLine false rest) =
            ([⟨.separator, " "⟩, ⟨.separator, " "⟩] ++ (run .idle (blankLine false rest)).1,
              (run .idle (blankLine false rest)).2) := by
          simp [run_cons, step_idle_space]
        rw [hsource, hblanked]
        exact hrest.prepend (by rw [openBehind]) (.space (.space .nil))
  | case6 c rest hclose ih =>
    cases hshadows with
    | @inside star _ hcloses =>
        have hinside : Shadows true (.blockComment (c == '*')) .idle rest := by
          refine .inside fun hstar hhead => ?_
          obtain rfl := eq_of_beq hstar
          obtain ⟨tail, rfl⟩ := List.head?_eq_some_iff.mp hhead
          exact hclose tail rfl rfl
        have hrest := ih hinside
        have hstep : step (.blockComment star) c = ([], .blockComment (c == '*')) := by
          have hnot : ¬ (star && c == '/') = true := by
            intro hboth
            simp only [Bool.and_eq_true, beq_iff_eq] at hboth
            exact hcloses hboth.1 (by rw [hboth.2]; rfl)
          simp only [step, if_neg hnot]
        rw [run_cons, run_cons, hstep, step_idle_space]
        exact hrest.prepend (by rw [openBehind]; exact hclose) (.space .nil)

end Scan

end SignalScript
