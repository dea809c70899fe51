import SignalScript.Text.Digits

/-!
# Decimal digits

The digits that a number is written with spell it, and have no leading zero.
-/

namespace SignalScript.Text

theorem foldlM_digit? {digits : List Char} (hdigits : ∀ c ∈ digits, c.isDigit = true)
    (value : Nat) :
    digits.foldlM (fun value c => (digit? 10 c).map (10 * value + ·)) value =
      some (Nat.ofDigitChars 10 digits value) := by
  induction digits generalizing value with
  | nil => rfl
  | cons c rest ih =>
      have hc : '0' ≤ c ∧ c ≤ '9' := Char.isDigit_iff_toNat.mp (hdigits c (.head _))
      have hlt : c.toNat - 48 < 10 := by
        have hle : c.toNat ≤ 57 := hc.2
        omega
      have hdigit : digit? 10 c = some (c.toNat - '0'.toNat) := by
        simp [digit?, hc, hlt]
      simp [hdigit, ih fun c hmem => hdigits c (.tail _ hmem), Nat.ofDigitChars_cons]

/-- A positive number has no leading zero. -/
theorem head?_toDigits {n : Nat} (hn : 0 < n) : (Nat.toDigits 10 n).head? ≠ some '0' := by
  induction n using Nat.strongRecOn with
  | ind n ih =>
      by_cases hsmall : n < 10
      · have hdigits : ∀ n < 10, 0 < n → n.digitChar ≠ '0' := by decide
        rw [Nat.toDigits_of_lt_base hsmall]
        simpa using hdigits n hsmall hn
      · have hhead := ih (n / 10) (by omega) (by omega)
        obtain ⟨c, rest, hdigits⟩ :=
          List.exists_cons_of_ne_nil (Nat.toDigits_ne_nil (n := n / 10) (b := 10))
        rw [Nat.toDigits_of_base_le (by omega) (by omega), hdigits]
        rwa [hdigits] at hhead

theorem natural?_of_head? {digits : List Char} (hzero : digits.head? ≠ some '0') :
    natural? digits = ofDigits? 10 digits := by
  unfold natural?
  split <;> simp_all

/-- The digits of a number are read as this number. -/
theorem natural?_toDigits (n : Nat) : natural? (Nat.toDigits 10 n) = some n := by
  rcases Nat.eq_zero_or_pos n with rfl | hn
  · rfl
  · have hdigits : ∀ c ∈ Nat.toDigits 10 n, c.isDigit = true := fun c hmem =>
      Nat.isDigit_of_mem_toDigits (by omega) (by omega) hmem
    rw [natural?_of_head? (head?_toDigits hn), ofDigits?,
      if_neg (by simp [Nat.toDigits_ne_nil]), foldlM_digit? hdigits, Nat.ofDigitChars_ten_toDigits]

end SignalScript.Text
