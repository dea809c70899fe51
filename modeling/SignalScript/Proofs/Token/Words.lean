import SignalScript.Token.Scan

/-!
# Words

The characters that values are made of.  Upper-casing a character that the scanner
collects into a value gives characters that it collects as they are, so a value that
is written out is read again unchanged.
-/

namespace SignalScript

namespace Text.UpperCase

/-- Whether the ends and steps of two runs tell that no image of the first is a
member of the second.  The comparisons are those that the kernel computes with. -/
def Run.misses (run other : Run) : Bool :=
  Nat.blt (run.upper + (run.last - run.first)) other.first || Nat.blt other.last run.upper ||
    (Nat.beq other.step 2 && (Nat.beq run.step 2 || Nat.beq run.first run.last) &&
      Nat.beq ((run.upper + other.first) % 2) 1)

/-- Whether a code point lies outside the images of a run. -/
def Run.missesCode (run : Run) (code : Nat) : Bool :=
  Nat.blt (run.upper + (run.last - run.first)) code || Nat.blt code run.upper

theorem Run.covers_image_of_misses {run other : Run} (hmisses : run.misses other = true)
    {code : Nat} (hcovers : run.covers code = true) :
    other.covers (run.image code) = false := by
  simp only [Run.covers, Bool.and_eq_true, decide_eq_true_eq, beq_iff_eq] at hcovers
  obtain ⟨⟨hfirst, hlast⟩, hstep⟩ := hcovers
  simp only [Run.misses, Nat.blt_eq, Nat.beq_eq, Bool.or_eq_true, Bool.and_eq_true] at hmisses
  rw [Bool.eq_false_iff]
  intro hother
  have himage : run.image code = run.upper + (code - run.first) := rfl
  simp only [Run.covers, Bool.and_eq_true, decide_eq_true_eq, beq_iff_eq, himage] at hother
  obtain ⟨⟨hotherFirst, hotherLast⟩, hotherStep⟩ := hother
  rcases hmisses with (habove | hbelow) | ⟨⟨hother2, heven⟩, hodd⟩
  · omega
  · omega
  · rw [hother2] at hotherStep
    rcases heven with heven | hsingle
    · rw [heven] at hstep
      omega
    · omega

theorem Run.image_ne_of_missesCode {run : Run} {other : Nat}
    (hmisses : run.missesCode other = true) {code : Nat} (hcovers : run.covers code = true) :
    run.image code ≠ other := by
  simp only [Run.covers, Bool.and_eq_true, decide_eq_true_eq] at hcovers
  simp only [Run.missesCode, Nat.blt_eq, Bool.or_eq_true] at hmisses
  simp only [Run.image]
  omega

/-- What the images of a run are: characters beyond ASCII, or one letter. -/
def Run.Sound (run : Run) : Prop :=
  (0x80 ≤ run.upper ∧ (run.upper + (run.last - run.first) < 0xD800 ∨
      0xDFFF < run.upper ∧ run.upper + (run.last - run.first) < 0x110000)) ∨
    run.first = run.last ∧ (run.upper = 0x49 ∨ run.upper = 0x53)

instance (run : Run) : Decidable run.Sound := by
  unfold Run.Sound
  infer_instance

theorem runs_sound : ∀ run ∈ runs, run.Sound := by
  decide +kernel

private theorem runs_miss :
    (runs.all fun run => runs.all fun other => run.misses other) = true := by
  decide +kernel

private theorem runs_miss_expansions :
    (runs.all fun run => expansions.all fun entry => run.missesCode entry.1) = true := by
  decide +kernel

/-- No image of a run is a member of a run. -/
theorem find?_image {run : Run} (hmem : run ∈ runs) {code : Nat}
    (hcovers : run.covers code = true) : runs.find? (·.covers (run.image code)) = none := by
  rw [List.find?_eq_none]
  intro other hother
  have hmisses := List.all_eq_true.mp (List.all_eq_true.mp runs_miss run hmem) other hother
  simp [Run.covers_image_of_misses hmisses hcovers]

/-- No image of a run has an expansion. -/
theorem lookup_image {run : Run} (hmem : run ∈ runs) {code : Nat}
    (hcovers : run.covers code = true) : expansions.lookup (run.image code) = none := by
  rw [List.lookup_eq_none_iff]
  intro entry hentry
  have hmisses := List.all_eq_true.mp
    (List.all_eq_true.mp runs_miss_expansions run hmem) entry hentry
  simpa using Run.image_ne_of_missesCode hmisses hcovers

/-- The code points of the images of a run are those that it says. -/
theorem Run.toNat_image {run : Run} (hsound : 0x80 ≤ run.upper ∧
      (run.upper + (run.last - run.first) < 0xD800 ∨
        0xDFFF < run.upper ∧ run.upper + (run.last - run.first) < 0x110000))
    {code : Nat} (hcovers : run.covers code = true) :
    (Char.ofNat (run.image code)).toNat = run.image code ∧ 0x80 ≤ run.image code := by
  have hbounds : run.first ≤ code ∧ code ≤ run.last := by
    simp only [Run.covers, Bool.and_eq_true, decide_eq_true_eq] at hcovers
    exact hcovers.1
  have hvalid : (run.image code).isValidChar := by
    simp only [Run.image, Nat.isValidChar]
    omega
  refine ⟨?_, ?_⟩
  · rw [Char.ofNat, dif_pos hvalid]
    rfl
  · simp only [Run.image]
    omega

/-- A run with one member and a letter as its image. -/
theorem Run.image_single {run : Run} (hsingle : run.first = run.last) {code : Nat}
    (hcovers : run.covers code = true) : run.image code = run.upper := by
  simp only [Run.covers, Bool.and_eq_true, decide_eq_true_eq] at hcovers
  simp only [Run.image]
  omega

end Text.UpperCase

/-- A character of a value: no line feed, nothing that the scanner treats otherwise,
and its own upper-case form. -/
structure WordChar (c : Char) : Prop where
  punctuation : TokenKind.ofPunctuation? c = none
  operator : c ∉ operatorChars
  feed : c ≠ '\n'
  upper : Text.upperCase c = [c]

instance (c : Char) : Decidable (WordChar c) :=
  decidable_of_iff
    (TokenKind.ofPunctuation? c = none ∧ c ∉ operatorChars ∧ c ≠ '\n' ∧ Text.upperCase c = [c])
    ⟨fun ⟨punctuation, operator, feed, upper⟩ => ⟨punctuation, operator, feed, upper⟩,
      fun h => ⟨h.punctuation, h.operator, h.feed, h.upper⟩⟩

namespace WordChar

/-- The scanner treats all characters beyond ASCII alike. -/
private theorem of_beyond {c : Char} (hbeyond : 0x80 ≤ c.toNat)
    (hupper : Text.upperCase c = [c]) : WordChar c := by
  have hne : ∀ other : Char, other.toNat < 0x80 → c ≠ other := by
    rintro other hother rfl
    omega
  refine ⟨?_, ?_, hne '\n' (by decide), hupper⟩
  · unfold TokenKind.ofPunctuation?
    split <;> first | rfl | exact absurd hbeyond (by decide)
  · simp only [operatorChars, List.mem_cons, List.not_mem_nil, or_false, not_or]
    refine ⟨?_, ?_, ?_, ?_, ?_, ?_, ?_, ?_, ?_, ?_, ?_, ?_, ?_⟩
    all_goals exact hne _ (by decide)

private theorem of_ascii : ∀ code < 0x80, TokenKind.ofPunctuation? (Char.ofNat code) = none →
    Char.ofNat code ∉ operatorChars → Char.ofNat code ≠ '\n' →
      WordChar (Char.ofNat code).toUpper := by
  decide +kernel

private theorem of_expansions : ∀ entry ∈ Text.UpperCase.expansions, entry.2 ≠ [] ∧
    ∀ code ∈ entry.2, WordChar (Char.ofNat code) := by
  decide +kernel

private theorem of_run {run : Text.UpperCase.Run} (hmem : run ∈ Text.UpperCase.runs) {code : Nat}
    (hcovers : run.covers code = true) : WordChar (Char.ofNat (run.image code)) := by
  rcases Text.UpperCase.runs_sound run hmem with hbeyond | ⟨hsingle, hletter⟩
  · obtain ⟨hcode, hlarge⟩ := Text.UpperCase.Run.toNat_image hbeyond hcovers
    refine of_beyond (by omega) ?_
    simp only [Text.upperCase, hcode]
    rw [if_neg (by omega), Text.UpperCase.lookup_image hmem hcovers,
      Text.UpperCase.find?_image hmem hcovers]
  · rw [Text.UpperCase.Run.image_single hsingle hcovers]
    rcases hletter with hletter | hletter
    · rw [hletter]
      decide
    · rw [hletter]
      decide

/-- What the scanner collects of a character belongs to a value as it is. -/
theorem of_mem_upperCase {c : Char} (hpunctuation : TokenKind.ofPunctuation? c = none)
    (hoperator : c ∉ operatorChars) (hfeed : c ≠ '\n') :
    Text.upperCase c ≠ [] ∧ ∀ upper ∈ Text.upperCase c, WordChar upper := by
  by_cases hascii : c.toNat < 0x80
  · have hupper : Text.upperCase c = [c.toUpper] := by
      simp only [Text.upperCase, if_pos hascii]
    rw [hupper]
    have hword := of_ascii c.toNat hascii
    rw [Char.ofNat_toNat] at hword
    simpa using hword hpunctuation hoperator hfeed
  · cases hlookup : Text.UpperCase.expansions.lookup c.toNat with
    | some codes =>
        have hupper : Text.upperCase c = codes.map Char.ofNat := by
          simp only [Text.upperCase, if_neg hascii, hlookup]
        obtain ⟨before, after, htable, _⟩ := List.lookup_eq_some_iff.mp hlookup
        obtain ⟨hne, hcodes⟩ := of_expansions (c.toNat, codes) (by simp [htable])
        rw [hupper]
        refine ⟨by simpa using hne, ?_⟩
        intro upper hmem
        obtain ⟨code, hcode, rfl⟩ := List.mem_map.mp hmem
        exact hcodes code hcode
    | none =>
        cases hfind : Text.UpperCase.runs.find? (·.covers c.toNat) with
        | some run =>
            have hupper : Text.upperCase c = [Char.ofNat (run.image c.toNat)] := by
              simp only [Text.upperCase, if_neg hascii, hlookup, hfind]
            have hcovers : run.covers c.toNat = true := by
              simpa using List.find?_some hfind
            rw [hupper]
            simpa using of_run (List.mem_of_find?_eq_some hfind) hcovers
        | none =>
            have hupper : Text.upperCase c = [c] := by
              simp only [Text.upperCase, if_neg hascii, hlookup, hfind]
            rw [hupper]
            simpa using of_beyond (by omega) hupper

end WordChar

/-- A character that the scanner collects into a value as it is.  In a line that is not
one of a text it can be a line feed. -/
structure PlainChar (c : Char) : Prop where
  punctuation : TokenKind.ofPunctuation? c = none
  operator : c ∉ operatorChars
  upper : Text.upperCase c = [c]

theorem WordChar.plain {c : Char} (hword : WordChar c) : PlainChar c :=
  ⟨hword.punctuation, hword.operator, hword.upper⟩

/-- What is collected of a character is collected again as it is. -/
theorem PlainChar.of_mem_upperCase {c : Char} (hpunctuation : TokenKind.ofPunctuation? c = none)
    (hoperator : c ∉ operatorChars) :
    Text.upperCase c ≠ [] ∧ ∀ upper ∈ Text.upperCase c, PlainChar upper := by
  by_cases hfeed : c = '\n'
  · subst hfeed
    have hupper : Text.upperCase '\n' = ['\n'] := by decide
    rw [hupper]
    exact ⟨by simp, List.forall_mem_singleton.mpr ⟨hpunctuation, hoperator, hupper⟩⟩
  · obtain ⟨hne, hwords⟩ := WordChar.of_mem_upperCase hpunctuation hoperator hfeed
    exact ⟨hne, fun upper hmem => (hwords upper hmem).plain⟩

/-- The characters that the scanner treats otherwise have no case. -/
theorem upperCase_of_mem_operatorChars {c : Char} (hoperator : c ∈ operatorChars) :
    Text.upperCase c = [c] := by
  have hall : (operatorChars.all fun c => decide (Text.upperCase c = [c])) = true := by decide
  exact of_decide_eq_true (List.all_eq_true.mp hall c hoperator)

theorem upperCase_of_punctuation {c : Char} {kind : TokenKind}
    (hkind : TokenKind.ofPunctuation? c = some kind) : Text.upperCase c = [c] := by
  unfold TokenKind.ofPunctuation? at hkind
  split at hkind
  case h_9 => cases hkind
  all_goals decide

end SignalScript
