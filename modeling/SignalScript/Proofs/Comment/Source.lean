import SignalScript.Proofs.Comment.Tokens

/-!
# A text without comments

The comments of a whole text, whose line breaks are kept when they are blanked.  Cutting
the blanked text into lines gives the lines with their comments blanked.
-/

namespace SignalScript

namespace Text

/-- Puts characters in front of the first line, starting one if there is none. -/
def appendFirstLine (front : List Char) : List (List Char) → List (List Char)
  | [] => [front]
  | line :: rest => (front ++ line) :: rest

private theorem appendFirstLine_cons (c : Char) (front : List Char) (lines : List (List Char)) :
    appendFirstLine (c :: front) lines = consFirstLine c (appendFirstLine front lines) := by
  cases lines with
  | nil => rfl
  | cons line rest => rfl

/-- Characters that break no line stand in the first one. -/
theorem splitLines_append {front rest : List Char} (hne : front ≠ []) (hfeed : '\n' ∉ front)
    (hreturn : front.getLast? = some '\r' → rest.head? ≠ some '\n') :
    splitLines (front ++ rest) = appendFirstLine front (splitLines rest) := by
  induction front with
  | nil => exact absurd rfl hne
  | cons c front ih =>
      have hc : c ≠ '\n' := by
        rintro rfl
        exact hfeed (.head _)
      cases front with
      | nil =>
          have hnext : c = '\r' → rest.head? ≠ some '\n' := by
            rintro rfl
            exact hreturn rfl
          rw [List.singleton_append, splitLines_cons hc hnext]
          cases splitLines rest with
          | nil => rfl
          | cons line others => rfl
      | cons next front =>
          have hnext : c = '\r' → (next :: front ++ rest).head? ≠ some '\n' := by
            rintro - hhead
            obtain rfl := Option.some.inj hhead
            exact hfeed (.tail _ (.head _))
          rw [List.cons_append, splitLines_cons hc hnext,
            ih (by simp) (fun hmem => hfeed (.tail _ hmem)) (by simpa using hreturn),
            ← appendFirstLine_cons]

/-- The first line begins as the text does. -/
theorem head?_of_splitLines {text line : List Char} {c : Char}
    (hline : (splitLines text).head? = some (c :: line)) : text.head? = some c := by
  fun_cases splitLines text with
  | case1 => simp [splitLines] at hline
  | case2 rest => simp [splitLines_feed] at hline
  | case3 rest => simp [splitLines_return_feed] at hline
  | case4 d rest hfeed hreturn =>
    have hd : d ≠ '\n' := fun heq => hfeed heq
    have hnext : d = '\r' → rest.head? ≠ some '\n' := by
      intro heq hhead
      obtain ⟨tail, rfl⟩ := List.head?_eq_some_iff.mp hhead
      exact hreturn tail heq rfl
    rw [splitLines_cons hd hnext] at hline
    cases hrest : splitLines rest with
    | nil =>
        rw [hrest] at hline
        simp only [consFirstLine, List.head?_cons, Option.some.injEq, List.cons.injEq] at hline
        simp [hline.1]
    | cons first others =>
        rw [hrest] at hline
        simp only [consFirstLine, List.head?_cons, Option.some.injEq, List.cons.injEq] at hline
        simp [hline.1]

end Text

namespace Comment

/-- Where a character stands. -/
inductive Place where
  | code
  /-- In a comment that ends with the line. -/
  | line
  /-- In a comment that ends with a star and a slash. -/
  | block
  deriving DecidableEq, Repr

/-- The place behind a line break. -/
def Place.nextLine : Place → Place
  | .code | .line => .code
  | .block => .block

/-- A text with a space for every character of a comment.  Line breaks are kept. -/
def blank : Place → List Char → List Char
  | _, [] => []
  | place, '\n' :: rest => '\n' :: blank place.nextLine rest
  | place, '\r' :: '\n' :: rest => '\r' :: '\n' :: blank place.nextLine rest
  | .code, '/' :: '/' :: rest => ' ' :: ' ' :: blank .line rest
  | .code, '/' :: '*' :: rest => ' ' :: ' ' :: blank .block rest
  | .code, c :: rest => c :: blank .code rest
  | .line, _ :: rest => ' ' :: blank .line rest
  | .block, '*' :: '/' :: rest => ' ' :: ' ' :: blank .code rest
  | .block, _ :: rest => ' ' :: blank .block rest

end Comment

/-- A text without comments: their characters are spaces, but for line breaks. -/
def blankComments (source : String) : String :=
  String.ofList (Comment.blank .code source.toList)

namespace Comment

open Text

/-! ## Line by line -/

/-- The first line of a text, blanked. -/
private def blankFirst : Place → List Char → List Char
  | .code, line => blankLine false line
  | .line, line => line.map fun _ => ' '
  | .block, line => blankLine true line

/-- Whether a block comment goes on behind the first line of a text. -/
private def openBehindFirst : Place → List Char → Bool
  | .code, line => openBehind false line
  | .line, _ => false
  | .block, line => openBehind true line

/-- The lines of a text that begins at a place, blanked. -/
private def blankRows (place : Place) : List (List Char) → List String
  | [] => []
  | line :: rest =>
    String.ofList (blankFirst place line) ::
      blankLines (openBehindFirst place line) (rest.map String.ofList)

private theorem blankRows_code (lines : List (List Char)) :
    blankRows .code lines = blankLines false (lines.map String.ofList) := by
  cases lines with
  | nil => rfl
  | cons line rest => simp [blankRows, blankLines, blankFirst, openBehindFirst]

private theorem blankRows_block (lines : List (List Char)) :
    blankRows .block lines = blankLines true (lines.map String.ofList) := by
  cases lines with
  | nil => rfl
  | cons line rest => simp [blankRows, blankLines, blankFirst, openBehindFirst]

private theorem blankRows_nextLine (place : Place) (lines : List (List Char)) :
    blankRows place ([] :: lines) = "" :: blankRows place.nextLine lines := by
  cases place with
  | code => exact congrArg (_ :: ·) (blankRows_code lines).symm
  | line => exact congrArg (_ :: ·) (blankRows_code lines).symm
  | block => exact congrArg (_ :: ·) (blankRows_block lines).symm

private theorem head?_blank {place : Place} {text : List Char}
    (hhead : (blank place text).head? = some '\n') : text.head? = some '\n' := by
  fun_cases blank place text with
  | case1 place => simp [blank] at hhead
  | case2 place rest => rfl
  | case3 place rest => simp [blank] at hhead
  | case4 rest => simp [blank] at hhead
  | case5 rest => simp [blank] at hhead
  | case6 c rest hfeed hreturn hline hblock =>
    rw [blank] at hhead
    · exact hhead
    · exact hfeed
    · exact hreturn
    · exact hline
    · exact hblock
  | case7 c rest hfeed hreturn =>
    rw [blank] at hhead
    · simp at hhead
    · exact hfeed
    · exact hreturn
  | case8 rest => simp [blank] at hhead
  | case9 c rest hfeed hreturn hclose =>
    rw [blank] at hhead
    · simp at hhead
    · exact hfeed
    · exact hreturn
    · exact hclose

/-- Characters in front of a text, and what they are blanked to. -/
private theorem blankRows_append {place next : Place} {rest : List Char}
    (front image : List Char)
    (hfront : splitLines (front ++ rest) = appendFirstLine front (splitLines rest))
    (himage : splitLines (image ++ blank next rest) =
      appendFirstLine image (splitLines (blank next rest)))
    (hfirst : ∀ line, line = [] ∨ (splitLines rest).head? = some line →
      blankFirst place (front ++ line) = image ++ blankFirst next line ∧
        openBehindFirst place (front ++ line) = openBehindFirst next line)
    (hrest : (splitLines (blank next rest)).map String.ofList = blankRows next (splitLines rest)) :
    (splitLines (image ++ blank next rest)).map String.ofList =
      blankRows place (splitLines (front ++ rest)) := by
  rw [hfront, himage]
  cases hlines : splitLines rest with
  | nil =>
      obtain ⟨hblank, -⟩ := hfirst [] (.inl rfl)
      rw [hlines, blankRows, List.map_eq_nil_iff] at hrest
      have hnil : blankFirst next [] = [] := by
        cases next with
        | code => rfl
        | line => rfl
        | block => rfl
      rw [List.append_nil, hnil, List.append_nil] at hblank
      simp [hrest, appendFirstLine, blankRows, hblank, blankLines]
  | cons line others =>
      obtain ⟨hblank, hopen⟩ := hfirst line (.inr (by rw [hlines]; rfl))
      rw [hlines, blankRows] at hrest
      obtain ⟨first, later, hsplit, hline, hlater⟩ := List.map_eq_cons_iff.mp hrest
      obtain rfl : first = blankFirst next line := String.ofList_injective hline
      simp [hsplit, appendFirstLine, blankRows, hblank, hopen, hlater]

private theorem splitLines_single {c : Char} {rest : List Char} (hfeed : c = '\n' → False)
    (hreturn : ∀ tail, c = '\r' → rest = '\n' :: tail → False) :
    splitLines ([c] ++ rest) = appendFirstLine [c] (splitLines rest) := by
  refine splitLines_append (by simp) (by simpa [eq_comm] using hfeed) fun hlast hhead => ?_
  obtain ⟨tail, rfl⟩ := List.head?_eq_some_iff.mp hhead
  exact hreturn tail (by simpa using hlast) rfl

/-- What does not follow a character in the text does not follow it in its line. -/
private theorem not_follows {c first next : Char} {rest line : List Char}
    (hnot : ∀ tail, c = first → rest = next :: tail → False)
    (hline : line = [] ∨ (splitLines rest).head? = some line) :
    ∀ tail, c = first → line = next :: tail → False := by
  rintro tail hc rfl
  obtain ⟨others, hrest⟩ := List.head?_eq_some_iff.mp
    (head?_of_splitLines (hline.resolve_left (by simp)))
  exact hnot others hc hrest

/-- Blanking a text and cutting it into lines can be done in either order. -/
private theorem splitLines_blank (place : Place) (text : List Char) :
    (splitLines (blank place text)).map String.ofList = blankRows place (splitLines text) := by
  fun_induction blank place text with
  | case1 place => simp [splitLines, blankRows]
  | case2 place rest ih =>
    rw [splitLines_feed, splitLines_feed, blankRows_nextLine, List.map_cons, ih]
  | case3 place rest ih =>
    rw [splitLines_return_feed, splitLines_return_feed, blankRows_nextLine, List.map_cons, ih]
  | case4 rest ih =>
    refine blankRows_append ['/', '/'] [' ', ' '] ?_ ?_ ?_ ih
    · exact splitLines_append (by simp) (by simp) (by simp)
    · exact splitLines_append (by simp) (by simp) (by simp)
    · intro line hline
      exact ⟨by simp [blankFirst, blankLine], by simp [openBehindFirst, openBehind]⟩
  | case5 rest ih =>
    refine blankRows_append ['/', '*'] [' ', ' '] ?_ ?_ ?_ ih
    · exact splitLines_append (by simp) (by simp) (by simp)
    · exact splitLines_append (by simp) (by simp) (by simp)
    · intro line hline
      exact ⟨by simp [blankFirst, blankLine], by simp [openBehindFirst, openBehind]⟩
  | case6 c rest hfeed hreturn hslash hstar ih =>
    refine blankRows_append [c] [c] (splitLines_single hfeed hreturn) ?_ ?_ ih
    · refine splitLines_single hfeed fun tail hc hblank => ?_
      obtain ⟨others, hrest⟩ := List.head?_eq_some_iff.mp
        (head?_blank (List.head?_eq_some_iff.mpr ⟨tail, hblank⟩))
      exact hreturn others hc hrest
    · intro line hline
      rw [List.singleton_append, blankFirst, openBehindFirst, blankLine, openBehind]
      · exact ⟨rfl, rfl⟩
      · exact not_follows hslash hline
      · exact not_follows hstar hline
      · exact not_follows hslash hline
      · exact not_follows hstar hline
  | case7 c rest hfeed hreturn ih =>
    refine blankRows_append [c] [' '] (splitLines_single hfeed hreturn) ?_ ?_ ih
    · exact splitLines_append (by simp) (by simp) (by simp)
    · intro line hline
      exact ⟨rfl, rfl⟩
  | case8 rest ih =>
    refine blankRows_append ['*', '/'] [' ', ' '] ?_ ?_ ?_ ih
    · exact splitLines_append (by simp) (by simp) (by simp)
    · exact splitLines_append (by simp) (by simp) (by simp)
    · intro line hline
      exact ⟨by simp [blankFirst, blankLine], by simp [openBehindFirst, openBehind]⟩
  | case9 c rest hfeed hreturn hclose ih =>
    refine blankRows_append [c] [' '] (splitLines_single hfeed hreturn) ?_ ?_ ih
    · exact splitLines_append (by simp) (by simp) (by simp)
    · intro line hline
      rw [List.singleton_append, blankFirst, openBehindFirst, blankLine, openBehind]
      · exact ⟨rfl, rfl⟩
      · exact not_follows hclose hline
      · exact not_follows hclose hline

/-- The lines of a text without comments are its lines with their comments blanked. -/
theorem lines_blankComments (source : String) :
    lines (blankComments source) = blankLines false (lines source) := by
  rw [lines, blankComments, String.toList_ofList, splitLines_blank, blankRows_code, lines]

end Comment

end SignalScript
