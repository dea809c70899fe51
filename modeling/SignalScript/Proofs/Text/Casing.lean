import SignalScript.Proofs.Text.Lines
import SignalScript.Proofs.Token.Words

/-!
# The lines of an upper-cased text

Upper-casing can make a text longer, but no character that ends a line comes out of
another one.  So the lines of an upper-cased text are the upper-cased lines of the
text, and it ends with a return only where the text does.
-/

namespace SignalScript.Text

private theorem toUpper_ascii : ∀ code < 0x80, (Char.ofNat code).toUpper = Char.ofNat code ∨
    (Char.ofNat code).toUpper.isUpper = true := by
  decide +kernel

private theorem expansions_cased : ∀ entry ∈ UpperCase.expansions, ∀ code ∈ entry.2,
    (Char.ofNat code).isUpper = true ∨ 0x80 ≤ (Char.ofNat code).toNat := by
  decide +kernel

/-- A character is kept, or what comes of it are letters and characters beyond ASCII. -/
theorem eq_or_cased_of_mem_upperCase {c upper : Char} (hmem : upper ∈ upperCase c) :
    upper = c ∨ upper.isUpper = true ∨ 0x80 ≤ upper.toNat := by
  by_cases hascii : c.toNat < 0x80
  · have hupper : upper = c.toUpper := by
      simpa only [upperCase, if_pos hascii, List.mem_singleton] using hmem
    have hcases := toUpper_ascii c.toNat hascii
    rw [Char.ofNat_toNat] at hcases
    rw [hupper]
    exact hcases.imp_right .inl
  · simp only [upperCase, if_neg hascii] at hmem
    cases hlookup : UpperCase.expansions.lookup c.toNat with
    | some codes =>
        rw [hlookup] at hmem
        obtain ⟨code, hcode, rfl⟩ := List.mem_map.mp hmem
        obtain ⟨before, after, htable, -⟩ := List.lookup_eq_some_iff.mp hlookup
        exact .inr (expansions_cased (c.toNat, codes) (by simp [htable]) code hcode)
    | none =>
        rw [hlookup] at hmem
        cases hfind : UpperCase.runs.find? (·.covers c.toNat) with
        | none =>
            rw [hfind] at hmem
            exact .inl (List.mem_singleton.mp hmem)
        | some run =>
            rw [hfind] at hmem
            obtain rfl := List.mem_singleton.mp hmem
            have hcovers : run.covers c.toNat = true := by
              simpa using List.find?_some hfind
            rcases UpperCase.runs_sound run (List.mem_of_find?_eq_some hfind) with
              hbeyond | ⟨hsingle, hletter⟩
            · obtain ⟨hcode, hlarge⟩ := UpperCase.Run.toNat_image hbeyond hcovers
              exact .inr (.inr (by omega))
            · rw [UpperCase.Run.image_single hsingle hcovers]
              rcases hletter with hletter | hletter
              · rw [hletter]
                exact .inr (.inl (by decide))
              · rw [hletter]
                exact .inr (.inl (by decide))

theorem feed_not_mem_upperCase {c : Char} (hfeed : c ≠ '\n') : '\n' ∉ upperCase c := by
  intro hmem
  rcases eq_or_cased_of_mem_upperCase hmem with heq | hupper | hbeyond
  · exact hfeed heq.symm
  · simp at hupper
  · simp at hbeyond

theorem return_not_mem_upperCase {c : Char} (hreturn : c ≠ '\r') : '\r' ∉ upperCase c := by
  intro hmem
  rcases eq_or_cased_of_mem_upperCase hmem with heq | hupper | hbeyond
  · exact hreturn heq.symm
  · simp at hupper
  · simp at hbeyond

theorem upperCase_ne_nil (c : Char) : upperCase c ≠ [] := by
  cases hpunctuation : TokenKind.ofPunctuation? c with
  | some kind => simp [upperCase_of_punctuation hpunctuation]
  | none =>
      by_cases hoperator : c ∈ operatorChars
      · simp [upperCase_of_mem_operatorChars hoperator]
      · exact (PlainChar.of_mem_upperCase hpunctuation hoperator).1

/-- What upper-casing gives of a text, as a text. -/
def upperCaseString (text : String) : String :=
  String.ofList (upperCaseText text.toList)

@[simp]
theorem toList_upperCaseString (text : String) :
    (upperCaseString text).toList = upperCaseText text.toList :=
  String.toList_ofList

theorem head?_upperCaseText_ne_feed {text : List Char} (hfeed : text.head? ≠ some '\n') :
    (upperCaseText text).head? ≠ some '\n' := by
  cases text with
  | nil => simp
  | cons c rest =>
      have hne : c ≠ '\n' := fun heq => hfeed (by rw [heq]; rfl)
      obtain ⟨upper, others, hupper⟩ := List.exists_cons_of_ne_nil (upperCase_ne_nil c)
      have hmem := feed_not_mem_upperCase hne
      rw [hupper] at hmem
      rw [upperCaseText_cons, hupper, List.cons_append, List.head?_cons]
      rintro ⟨⟩
      exact hmem (.head _)

/-- Characters in front of a text that do not end a line belong to its first line. -/
theorem splitLines_append_plain {front : List Char} (hfeed : '\n' ∉ front)
    (hreturn : '\r' ∉ front) (rest : List Char) :
    splitLines (front ++ rest) = front.foldr consFirstLine (splitLines rest) := by
  induction front with
  | nil => rfl
  | cons c front ih =>
      obtain ⟨hc, hfront⟩ := not_or.mp (mt List.mem_cons.mpr hfeed)
      obtain ⟨hr, hfrontReturn⟩ := not_or.mp (mt List.mem_cons.mpr hreturn)
      rw [List.cons_append, splitLines_cons (Ne.symm hc) fun heq => absurd heq.symm hr,
        ih hfront hfrontReturn]
      rfl

private theorem map_consFirstLine (c : Char) (lines : List (List Char)) :
    (consFirstLine c lines).map upperCaseText =
      (upperCase c).foldr consFirstLine (lines.map upperCaseText) := by
  have hfirst : ∀ (front line : List Char) (others : List (List Char)),
      front.foldr consFirstLine (line :: others) = (front ++ line) :: others := by
    intro front line others
    induction front with
    | nil => rfl
    | cons first front ih => rw [List.foldr_cons, ih]; rfl
  cases lines with
  | cons line others => exact (hfirst _ _ _).symm
  | nil =>
      have hsplit := (upperCase c).dropLast_concat_getLast (upperCase_ne_nil c)
      have hlast : ∀ last : Char, [last].foldr consFirstLine [] = [[last]] := fun _ => rfl
      rw [← hsplit, List.map_nil, List.foldr_append, hlast, hfirst, hsplit]
      simp [consFirstLine]

theorem splitLines_upperCaseText (text : List Char) :
    splitLines (upperCaseText text) = (splitLines text).map upperCaseText := by
  fun_induction splitLines text with
  | case1 => rfl
  | case2 rest ih =>
    have hupper : upperCaseText ('\n' :: rest) = '\n' :: upperCaseText rest := rfl
    rw [hupper, splitLines_feed, ih]
    rfl
  | case3 rest ih =>
    have hupper : upperCaseText ('\r' :: '\n' :: rest) = '\r' :: '\n' :: upperCaseText rest := rfl
    rw [hupper, splitLines_return_feed, ih]
    rfl
  | case4 c rest hfeed hreturn ih =>
    rw [upperCaseText_cons, map_consFirstLine, ← ih]
    by_cases hc : c = '\r'
    · subst hc
      have hhead : rest.head? ≠ some '\n' := by
        intro hhead
        obtain ⟨others, rfl⟩ := List.head?_eq_some_iff.mp hhead
        exact hreturn others rfl rfl
      have hupper : upperCase '\r' = ['\r'] := by decide
      rw [hupper, List.singleton_append,
        splitLines_cons (by decide) fun _ => head?_upperCaseText_ne_feed hhead]
      rfl
    · exact splitLines_append_plain (feed_not_mem_upperCase hfeed) (return_not_mem_upperCase hc) _

theorem lines_upperCaseString (source : String) :
    lines (upperCaseString source) = (lines source).map upperCaseString := by
  rw [lines, lines, toList_upperCaseString, splitLines_upperCaseText, List.map_map, List.map_map]
  refine List.map_congr_left fun line _ => ?_
  simp [upperCaseString]

theorem dropReturn_upperCaseText (line : List Char) :
    dropReturn (upperCaseText line) = upperCaseText (dropReturn line) := by
  rcases List.eq_nil_or_concat line with rfl | ⟨front, c, rfl⟩
  · rfl
  · by_cases hreturn : c = '\r'
    · have hupper : upperCaseText ['\r'] = ['\r'] := by decide
      rw [hreturn, List.concat_eq_append, upperCaseText_append, hupper, dropReturn_concat,
        dropReturn_concat]
    · have hlast : (upperCaseText (front ++ [c])).getLast? ≠ some '\r' := by
        have hsplit := (upperCase c).dropLast_concat_getLast (upperCase_ne_nil c)
        have hmem : (upperCase c).getLast (upperCase_ne_nil c) ∈ upperCase c := List.getLast_mem _
        rw [upperCaseText_append, upperCaseText_cons, upperCaseText_nil, List.append_nil,
          ← hsplit, ← List.append_assoc, List.getLast?_concat]
        intro hlast
        rw [Option.some.inj hlast] at hmem
        exact return_not_mem_upperCase hreturn hmem
      rw [List.concat_eq_append, dropReturn, if_neg hlast, dropReturn,
        if_neg (by simpa using hreturn)]

end SignalScript.Text
