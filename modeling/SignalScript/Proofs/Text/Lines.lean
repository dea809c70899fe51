import SignalScript.Text.Lines

/-!
# Lines one by one

The lines of a text that begins with a whole line, and that no line holds a line
feed.
-/

namespace SignalScript.Text

/-- No line of a text holds a line feed. -/
theorem feed_not_mem_splitLines (text : List Char) : ∀ line ∈ splitLines text, '\n' ∉ line := by
  fun_induction splitLines text with
  | case1 => simp
  | case2 rest ih => simpa using ih
  | case3 rest ih => simpa using ih
  | case4 c rest hfeed hreturn ih =>
    have hne : '\n' ≠ c := by
      rintro rfl
      exact hfeed rfl
    cases hrest : splitLines rest with
    | nil => simpa [consFirstLine] using hne
    | cons first others =>
        rw [hrest] at ih
        intro line hmem
        rcases List.mem_cons.mp hmem with rfl | hother
        · simpa [hne] using ih first (.head _)
        · exact ih line (.tail _ hother)

theorem feed_not_mem_lines (source : String) : ∀ line ∈ lines source, '\n' ∉ line.toList := by
  intro line hline
  obtain ⟨characters, hmem, rfl⟩ := List.mem_map.mp hline
  rw [String.toList_ofList]
  exact feed_not_mem_splitLines _ characters hmem

theorem splitLines_cons {c : Char} {rest : List Char} (hfeed : c ≠ '\n')
    (hreturn : c = '\r' → rest.head? ≠ some '\n') :
    splitLines (c :: rest) = consFirstLine c (splitLines rest) := by
  rw [splitLines]
  · exact hfeed
  · rintro others rfl rfl
    exact hreturn rfl rfl

private theorem dropReturn_cons {c : Char} {rest : List Char} (hkeep : c = '\r' → rest ≠ []) :
    dropReturn (c :: rest) = c :: dropReturn rest := by
  cases rest with
  | nil =>
      have hne : c ≠ '\r' := fun heq => hkeep heq rfl
      simp [dropReturn, hne]
  | cons next rest =>
      rw [dropReturn, dropReturn, List.getLast?_cons_cons]
      split
      · rfl
      · rfl

/-- A line feed ends the first line, whose last return it takes with it. -/
theorem splitLines_append_feed {line : List Char} (hfeed : '\n' ∉ line) (rest : List Char) :
    splitLines (line ++ '\n' :: rest) = dropReturn line :: splitLines rest := by
  induction line with
  | nil => exact splitLines_feed rest
  | cons c line ih =>
      have hne : c ≠ '\n' := by
        rintro rfl
        simp at hfeed
      by_cases hreturn : c = '\r' ∧ line = []
      · obtain ⟨rfl, rfl⟩ := hreturn
        exact splitLines_return_feed rest
      · have hkeep : c = '\r' → line ≠ [] := fun heq hnil => hreturn ⟨heq, hnil⟩
        have hnext : c = '\r' → (line ++ '\n' :: rest).head? ≠ some '\n' := by
          intro heq
          cases line with
          | nil => exact absurd rfl (hkeep heq)
          | cons next line =>
              rintro ⟨⟩
              simp at hfeed
        rw [List.cons_append, splitLines_cons hne hnext, ih (by simp_all), dropReturn_cons hkeep]
        rfl

theorem lines_append_feed {line : String} (hfeed : '\n' ∉ line.toList) (rest : String) :
    lines (line ++ "\n" ++ rest) = String.ofList (dropReturn line.toList) :: lines rest := by
  have hsplit := splitLines_append_feed hfeed rest.toList
  rw [lines, lines, String.toList_append, String.toList_append, List.append_assoc,
    show "\n".toList ++ rest.toList = '\n' :: rest.toList from rfl, hsplit, List.map_cons]

/-! ## Dropped returns -/

theorem dropReturn_append {left : List Char} (hleft : left.getLast? ≠ some '\r')
    (right : List Char) : dropReturn (left ++ right) = left ++ dropReturn right := by
  cases hlast : right.getLast? with
  | none =>
      obtain rfl := List.getLast?_eq_none_iff.mp hlast
      rw [List.append_nil, dropReturn, if_neg hleft]
      simp [dropReturn]
  | some c =>
      have hne : right ≠ [] := by
        rintro rfl
        simp at hlast
      rw [dropReturn, dropReturn, List.getLast?_append, hlast, Option.some_or,
        List.dropLast_append_of_ne_nil hne]
      split
      · rfl
      · rfl

theorem length_dropReturn_le (line : List Char) : (dropReturn line).length ≤ line.length := by
  rw [dropReturn]
  split
  · simp
  · exact Nat.le_refl _

theorem dropReturn_subset (line : List Char) : dropReturn line ⊆ line := by
  rw [dropReturn]
  split
  · exact List.dropLast_subset line
  · exact List.Subset.refl line

end SignalScript.Text
