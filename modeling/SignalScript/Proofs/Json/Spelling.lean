import Mathlib.Data.List.Chain
import SignalScript.Json.Token
import SignalScript.Proofs.Text.Digits

/-!
# Text that spells JSON tokens

A sequence of tokens can be written in many ways.  Blanks stand before, between and
behind the tokens, and each character of a string is written as itself, by the letter of
an escape, or by its UTF-16 units in base 16.  The scanner finds the same tokens in all of
these texts, as long as no two bare tokens (literal names and numbers) follow each other.
-/

namespace SignalScript.Json.Token

/-! ## Spellings -/

/-- The escapes of one letter, with the characters they stand for. -/
def letterEscapes : List (Char × Char) :=
  [('"', '"'), ('\\', '\\'), ('/', '/'), ('b', '\x08'), ('f', '\x0c'), ('n', '\n'), ('r', '\r'),
    ('t', '\t')]

/-- A digit of base 16; letters may be of either case. -/
def IsHexDigit (c : Char) (value : Nat) : Prop :=
  value < 16 ∧ (c = value.digitChar ∨ c = value.digitChar.toUpper)

/-- The four digits of a UTF-16 unit. -/
inductive SpellsUnit : List Char → Nat → Prop
  | digits {first second third fourth : Char} {a b c d : Nat} (hfirst : IsHexDigit first a)
      (hsecond : IsHexDigit second b) (hthird : IsHexDigit third c)
      (hfourth : IsHexDigit fourth d) :
      SpellsUnit [first, second, third, fourth] (0x1000 * a + 0x100 * b + 0x10 * c + d)

/-- The ways to write a character of a string. -/
inductive SpellsChar : List Char → Char → Prop
  | itself {c : Char} (hprinted : 0x20 ≤ c.toNat) (hquote : c ≠ '"') (hescape : c ≠ '\\') :
      SpellsChar [c] c
  | letter {letter c : Char} (hletter : (letter, c) ∈ letterEscapes) :
      SpellsChar ['\\', letter] c
  | unit {digits : List Char} {c : Char} (hdigits : SpellsUnit digits c.toNat) :
      SpellsChar ('\\' :: 'u' :: digits) c
  /-- A character beyond 16 bits has a high and a low surrogate. -/
  | pair {first second : List Char} {high low : Nat} {c : Char}
      (hfirst : SpellsUnit first high) (hsecond : SpellsUnit second low)
      (hhigh : 0xD800 ≤ high ∧ high ≤ 0xDBFF) (hlow : 0xDC00 ≤ low ∧ low ≤ 0xDFFF)
      (hpair : c.toNat = 0x10000 + (high - 0xD800) * 0x400 + (low - 0xDC00)) :
      SpellsChar ('\\' :: 'u' :: first ++ '\\' :: 'u' :: second) c

/-- The ways to write the characters of a string, without the quotes. -/
inductive SpellsString : List Char → List Char → Prop
  | nil : SpellsString [] []
  | cons {chars rest text : List Char} {c : Char} (hchar : SpellsChar chars c)
      (hrest : SpellsString rest text) : SpellsString (chars ++ rest) (c :: text)

/-- The ways to write a token.  All but strings have a single one. -/
inductive SpellsToken : List Char → Token → Prop
  | string {chars : List Char} {text : String} (hchars : SpellsString chars text.toList) :
      SpellsToken ('"' :: chars ++ ['"']) (.string text)
  | written {token : Token} (hother : ∀ text, token ≠ .string text) :
      SpellsToken token.text.toList token

/-- The ways to write tokens, with blanks around them. -/
inductive Spells : List Char → List Token → Prop
  | nil {blanks : List Char} (hblanks : blanks.all isBlank) : Spells blanks []
  | cons {blanks chars rest : List Char} {token : Token} {tokens : List Token}
      (hblanks : blanks.all isBlank) (htoken : SpellsToken chars token)
      (hrest : Spells rest tokens) : Spells (blanks ++ chars ++ rest) (token :: tokens)

/-! ## Strings are read -/

theorem digit?_of_isHexDigit {c : Char} {value : Nat} (hdigit : IsHexDigit c value) :
    Text.digit? 16 c = some value := by
  have hdigits : ∀ value < 16, Text.digit? 16 value.digitChar = some value ∧
      Text.digit? 16 value.digitChar.toUpper = some value := by
    decide
  obtain ⟨hvalue, rfl | rfl⟩ := hdigit
  · exact (hdigits value hvalue).1
  · exact (hdigits value hvalue).2

theorem escapedChar?_of_mem {letter c : Char} (hletter : (letter, c) ∈ letterEscapes) :
    letter ≠ 'u' ∧ escapedChar? letter = some c := by
  have hescapes : (letterEscapes.all fun (letter, c) =>
      letter ≠ 'u' ∧ escapedChar? letter = some c) = true := by
    decide
  exact of_decide_eq_true (List.all_eq_true.mp hescapes _ hletter)

section Scanning

variable {found : List Token} {rest : List Char} {text : String}

/-- The digits of a unit are read up to the last one, which tells what the unit is. -/
theorem scanFrom_unit {digits : List Char} {value : Nat} {high : Option Nat} {mode : Mode}
    (hdigits : SpellsUnit digits value) (hdone : unitDone text high value = some mode) :
    scanFrom (.unit text high 4 0) found (digits ++ rest) = scanFrom mode found rest := by
  cases hdigits with
  | @digits first second third fourth a b c d hfirst hsecond hthird hfourth =>
      have hvalue : 16 * (16 * (16 * a + b) + c) + d = 0x1000 * a + 0x100 * b + 0x10 * c + d := by
        omega
      rw [← hvalue] at hdone
      simp [scanFrom, step, digit?_of_isHexDigit hfirst, digit?_of_isHexDigit hsecond,
        digit?_of_isHexDigit hthird, digit?_of_isHexDigit hfourth, hdone]

/-- No character is a surrogate, so the unit of one stands for it alone. -/
theorem unitDone_char (text : String) (c : Char) :
    unitDone text none c.toNat = some (.quoted (text.push c)) := by
  have hvalid : c.toNat < 0xD800 ∨ 0xDFFF < c.toNat ∧ c.toNat < 0x110000 := c.valid
  have hhigh : ¬(0xD800 ≤ c.toNat ∧ c.toNat ≤ 0xDBFF) := by omega
  have hlow : ¬(0xDC00 ≤ c.toNat ∧ c.toNat ≤ 0xDFFF) := by omega
  simp [unitDone, hhigh, hlow]

theorem unitDone_high (text : String) {high : Nat} (hhigh : 0xD800 ≤ high ∧ high ≤ 0xDBFF) :
    unitDone text none high = some (.pair text high) := by
  simp [unitDone, hhigh]

theorem unitDone_low (text : String) {high low : Nat} {c : Char}
    (hlow : 0xDC00 ≤ low ∧ low ≤ 0xDFFF)
    (hpair : c.toNat = 0x10000 + (high - 0xD800) * 0x400 + (low - 0xDC00)) :
    unitDone text (some high) low = some (.quoted (text.push c)) := by
  simp [unitDone, hlow, ← hpair]

theorem scanFrom_char {chars : List Char} {c : Char} (hchar : SpellsChar chars c) :
    scanFrom (.quoted text) found (chars ++ rest) =
      scanFrom (.quoted (text.push c)) found rest := by
  cases hchar with
  | itself hprinted hquote hescape =>
      simp [scanFrom, step, hquote, hescape, Nat.not_lt.mpr hprinted]
  | letter hletter =>
      obtain ⟨hunit, hmeant⟩ := escapedChar?_of_mem hletter
      simp [scanFrom, step, hunit, hmeant]
  | @unit digits _ hdigits =>
      calc scanFrom (.quoted text) found ('\\' :: 'u' :: digits ++ rest)
        _ = scanFrom (.unit text none 4 0) found (digits ++ rest) := by
            simp [scanFrom, step]
        _ = scanFrom (.quoted (text.push c)) found rest :=
            scanFrom_unit hdigits (unitDone_char text c)
  | @pair first second high _ _ hfirst hsecond hhigh hlow hpair =>
      calc scanFrom (.quoted text) found ('\\' :: 'u' :: first ++ '\\' :: 'u' :: second ++ rest)
        _ = scanFrom (.unit text none 4 0) found (first ++ '\\' :: 'u' :: second ++ rest) := by
            simp [scanFrom, step]
        _ = scanFrom (.pair text high) found ('\\' :: 'u' :: second ++ rest) := by
            rw [List.append_assoc]
            exact scanFrom_unit hfirst (unitDone_high text hhigh)
        _ = scanFrom (.unit text (some high) 4 0) found (second ++ rest) := by
            simp [scanFrom, step]
        _ = scanFrom (.quoted (text.push c)) found rest :=
            scanFrom_unit hsecond (unitDone_low text hlow hpair)

theorem push_append_ofList (text : String) (c : Char) (others : List Char) :
    text.push c ++ String.ofList others = text ++ String.ofList (c :: others) := by
  apply String.toList_injective
  simp

/-- A string is read up to its closing quote, after the part of it that was read before. -/
theorem scanFrom_string {chars added : List Char} (hchars : SpellsString chars added) :
    scanFrom (.quoted text) found (chars ++ '"' :: rest) =
      scanFrom .between (.string (text ++ String.ofList added) :: found) rest := by
  induction hchars generalizing text with
  | nil => simp [scanFrom, step]
  | cons hchar hothers ih =>
      rw [List.append_assoc, scanFrom_char hchar, ih, push_append_ofList]

/-! ## Bare tokens are read -/

/-- The characters that end a bare token. -/
def isDelimiter (c : Char) : Bool :=
  isBlank c || c == '"' || (ofChar? c).isSome

/-- The tokens that are written without quotes and brackets. -/
def isBare : Token → Bool
  | .null | .bool _ | .integer _ => true
  | _ => false

theorem plain_of_not_isDelimiter {c : Char} (hc : isDelimiter c = false) :
    isBlank c = false ∧ c ≠ '"' ∧ ofChar? c = none := by
  simpa [isDelimiter, and_assoc] using hc

theorem scanFrom_bare {chars : List Char} (hchars : ∀ c ∈ chars, isDelimiter c = false) :
    scanFrom (.bare text) found (chars ++ rest) =
      scanFrom (.bare (text ++ String.ofList chars)) found rest := by
  induction chars generalizing text with
  | nil => simp
  | cons c others ih =>
      have hc := plain_of_not_isDelimiter (hchars c (.head _))
      calc scanFrom (.bare text) found (c :: (others ++ rest))
        _ = scanFrom (.bare (text.push c)) found (others ++ rest) := by
            simp [scanFrom, step, hc]
        _ = scanFrom (.bare (text ++ String.ofList (c :: others))) found rest := by
            rw [ih fun c hmem => hchars c (.tail _ hmem), push_append_ofList]

theorem plain_of_ofChar? {c : Char} {mark : Token} (hmark : ofChar? c = some mark) :
    isBlank c = false ∧ c ≠ '"' := by
  unfold ofChar? at hmark
  split at hmark
  case h_7 => cases hmark
  all_goals decide

/-- What ends a bare token is read as if the token had been complete before. -/
theorem scanFrom_bare_end {token : Token} (htoken : ofBare? text = some token)
    (hrest : ∀ c ∈ rest.head?, isDelimiter c = true) :
    scanFrom (.bare text) found rest = scanFrom .between (token :: found) rest := by
  cases rest with
  | nil => simp [scanFrom, finish, htoken]
  | cons c others =>
      have hc : isDelimiter c = true := hrest c rfl
      simp only [isDelimiter, Bool.or_eq_true, beq_iff_eq, or_assoc] at hc
      rcases hc with hblank | rfl | hmark
      · simp [scanFrom, step, hblank, htoken]
      · simp [scanFrom, step, isBlank, htoken]
      · obtain ⟨mark, hmark⟩ := Option.isSome_iff_exists.mp hmark
        obtain ⟨hblank, hquote⟩ := plain_of_ofChar? hmark
        simp [scanFrom, step, hblank, hquote, hmark, htoken]

end Scanning

theorem toList_text_integer (value : Int) :
    (integer value).text.toList =
      match value with
      | .ofNat n => Nat.toDigits 10 n
      | .negSucc n => '-' :: Nat.toDigits 10 (n + 1) := by
  cases value with
  | ofNat n => exact Nat.toList_repr
  | negSucc n =>
      calc ("-" ++ (n + 1).repr).toList
        _ = '-' :: (n + 1).repr.toList := by simp
        _ = '-' :: Nat.toDigits 10 (n + 1) := by rw [Nat.toList_repr]

theorem integer?_text (value : Int) : integer? (integer value).text.toList = some value := by
  rw [toList_text_integer]
  cases value with
  | ofNat n =>
      have hsign : (Nat.toDigits 10 n).head? ≠ some '-' := by
        intro hhead
        have hdigit := Nat.isDigit_of_mem_toDigits (by omega) (by omega) (List.mem_of_head? hhead)
        simp at hdigit
      unfold integer?
      split
      · simp_all
      · simp [Text.natural?_toDigits]
  | negSucc n => simp [integer?, Text.natural?_toDigits]

/-- The characters of a number are its sign and its digits. -/
theorem mem_text_integer {value : Int} {c : Char} (hmem : c ∈ (integer value).text.toList) :
    c = '-' ∨ c.isDigit = true := by
  rw [toList_text_integer] at hmem
  cases value with
  | ofNat n => exact .inr (Nat.isDigit_of_mem_toDigits (by omega) (by omega) hmem)
  | negSucc n =>
      refine (List.mem_cons.mp hmem).imp_right fun hmem => ?_
      exact Nat.isDigit_of_mem_toDigits (by omega) (by omega) hmem

theorem ofBare?_of_not_mem {text : String} (hname : text ∉ ["null", "true", "false"]) :
    ofBare? text = (integer? text.toList).map .integer := by
  unfold ofBare?
  split <;> simp_all

theorem ofBare?_text {token : Token} (hbare : token.isBare = true) :
    ofBare? token.text = some token := by
  cases token with
  | null => rfl
  | bool value => cases value <;> rfl
  | integer value =>
      have hname : (integer value).text ∉ ["null", "true", "false"] := by
        have hletters : ∀ name ∈ ["null", "true", "false"],
            (name.toList.any fun c => c != '-' && !c.isDigit) = true := by
          decide
        intro hmem
        obtain ⟨c, hc, hletter⟩ := List.any_eq_true.mp (hletters _ hmem)
        rcases mem_text_integer hc with rfl | hdigit
        · cases hletter
        · simp [hdigit] at hletter
      rw [ofBare?_of_not_mem hname, integer?_text]
      rfl
  | _ => cases hbare

theorem isDelimiter_of_isDigit {c : Char} (hdigit : c.isDigit = true) : isDelimiter c = false := by
  have hdigits : ∀ value < 10, isDelimiter (Char.ofNat (48 + value)) = false := by decide
  have hc : 48 ≤ c.toNat ∧ c.toNat ≤ 57 := Char.isDigit_iff_toNat.mp hdigit
  have hvalue : 48 + (c.toNat - 48) = c.toNat := by omega
  have hdelimiter := hdigits (c.toNat - 48) (by omega)
  rwa [hvalue, Char.ofNat_toNat] at hdelimiter

theorem text_ne_nil {token : Token} (hbare : token.isBare = true) : token.text.toList ≠ [] := by
  cases token with
  | null => decide
  | bool value => cases value <;> decide
  | integer value =>
      rw [toList_text_integer]
      cases value with
      | ofNat n => exact Nat.toDigits_ne_nil
      | negSucc n => exact List.cons_ne_nil _ _
  | _ => cases hbare

/-- Nothing within a bare token ends it. -/
theorem isDelimiter_of_mem_text {token : Token} (hbare : token.isBare = true) :
    ∀ c ∈ token.text.toList, isDelimiter c = false := by
  have hnames : ∀ name ∈ ["null", "true", "false"],
      (name.toList.all fun c => !isDelimiter c) = true := by
    decide
  have hname : ∀ name ∈ ["null", "true", "false"], ∀ c ∈ name.toList, isDelimiter c = false := by
    intro name hmem c hc
    simpa using List.all_eq_true.mp (hnames name hmem) c hc
  cases token with
  | null => exact hname "null" (by decide)
  | bool value =>
      cases value with
      | true => exact hname "true" (by decide)
      | false => exact hname "false" (by decide)
  | integer value =>
      intro c hmem
      rcases mem_text_integer hmem with rfl | hdigit
      · decide
      · exact isDelimiter_of_isDigit hdigit
  | _ => cases hbare

/-! ## Sequences of tokens are read -/

theorem scanFrom_blanks {found : List Token} {blanks rest : List Char}
    (hblanks : blanks.all isBlank = true) :
    scanFrom .between found (blanks ++ rest) = scanFrom .between found rest := by
  induction blanks with
  | nil => rfl
  | cons c others ih =>
      obtain ⟨hc, hothers⟩ : isBlank c = true ∧ others.all isBlank = true := by
        simpa using hblanks
      simpa [scanFrom, step, hc] using ih hothers

/-- All tokens that are no strings and not bare are single marks. -/
theorem exists_mark {token : Token} (hbare : token.isBare = false)
    (hother : ∀ text, token ≠ .string text) :
    ∃ c, token.text.toList = [c] ∧ ofChar? c = some token := by
  cases token with
  | arrayOpen => exact ⟨'[', rfl, rfl⟩
  | arrayClose => exact ⟨']', rfl, rfl⟩
  | objectOpen => exact ⟨'\x7b', rfl, rfl⟩
  | objectClose => exact ⟨'\x7d', rfl, rfl⟩
  | colon => exact ⟨':', rfl, rfl⟩
  | comma => exact ⟨',', rfl, rfl⟩
  | string text => exact absurd rfl (hother text)
  | _ => cases hbare

/-- A token is found where it stands; a bare one needs something behind it that ends it. -/
theorem scanFrom_token {found : List Token} {chars rest : List Char} {token : Token}
    (htoken : SpellsToken chars token)
    (hrest : token.isBare = true → ∀ c ∈ rest.head?, isDelimiter c = true) :
    scanFrom .between found (chars ++ rest) = scanFrom .between (token :: found) rest := by
  cases htoken with
  | @string chars text hchars =>
      calc scanFrom .between found ('"' :: chars ++ ['"'] ++ rest)
        _ = scanFrom (.quoted "") found (chars ++ '"' :: rest) := by
            simp [scanFrom, step, isBlank]
        _ = scanFrom .between (.string text :: found) rest := by
            rw [scanFrom_string hchars, String.empty_append, String.ofList_toList]
  | written hother =>
      cases hbare : token.isBare with
      | false =>
          obtain ⟨c, htext, hmark⟩ := exists_mark hbare hother
          obtain ⟨hblank, hquote⟩ := plain_of_ofChar? hmark
          simp [htext, scanFrom, step, hblank, hquote, hmark]
      | true =>
          obtain ⟨c, others, htext⟩ : ∃ c others, token.text.toList = c :: others :=
            List.exists_cons_of_ne_nil (text_ne_nil hbare)
          have hplain := isDelimiter_of_mem_text hbare
          rw [htext] at hplain
          have hc := plain_of_not_isDelimiter (hplain c (.head _))
          have hall : c.toString ++ String.ofList others = token.text := by
            apply String.toList_injective
            simp [htext]
          calc scanFrom .between found (token.text.toList ++ rest)
            _ = scanFrom (.bare c.toString) found (others ++ rest) := by
                simp [htext, scanFrom, step, hc]
            _ = scanFrom (.bare token.text) found rest := by
                rw [scanFrom_bare fun c hmem => hplain c (.tail _ hmem), hall]
            _ = scanFrom .between (token :: found) rest :=
                scanFrom_bare_end (ofBare?_text hbare) (hrest hbare)

/-- Tokens that are not bare begin with a mark or a quote. -/
theorem SpellsToken.exists_delimiter {chars : List Char} {token : Token}
    (htoken : SpellsToken chars token) (hbare : token.isBare = false) :
    ∃ c others, chars = c :: others ∧ isDelimiter c = true := by
  cases htoken with
  | string _ => exact ⟨'"', _, rfl, rfl⟩
  | written hother =>
      obtain ⟨c, htext, hmark⟩ := exists_mark hbare hother
      exact ⟨c, [], htext, by simp [isDelimiter, hmark]⟩

theorem Spells.head?_isDelimiter {chars : List Char} {tokens : List Token}
    (hspells : Spells chars tokens) (hbare : ∀ token ∈ tokens.head?, token.isBare = false) :
    ∀ c ∈ chars.head?, isDelimiter c = true := by
  cases hspells with
  | nil hblanks =>
      intro c hc
      simp [isDelimiter, List.all_eq_true.mp hblanks c (List.mem_of_head? hc)]
  | @cons blanks _ _ _ _ hblanks htoken _ =>
      intro c hc
      obtain ⟨first, others, rfl, hfirst⟩ := htoken.exists_delimiter (hbare _ rfl)
      cases blanks with
      | nil =>
          obtain rfl : first = c := by simpa using hc
          exact hfirst
      | cons blank blanks =>
          obtain rfl : blank = c := by simpa using hc
          simp [isDelimiter, List.all_eq_true.mp hblanks blank (.head _)]

/-- Whether no two bare tokens follow each other. -/
def Apart (tokens : List Token) : Prop :=
  tokens.IsChain fun token next => token.isBare = true → next.isBare = false

/-- The tokens that a text spells are found in it. -/
theorem scanFrom_spells {chars : List Char} {tokens : List Token} (hspells : Spells chars tokens)
    (hapart : Apart tokens) (found : List Token) :
    scanFrom .between found chars = some (found.reverse ++ tokens) := by
  induction hspells generalizing found with
  | @nil blanks hblanks =>
      calc scanFrom .between found blanks
        _ = scanFrom .between found (blanks ++ []) := by rw [List.append_nil]
        _ = scanFrom .between found [] := scanFrom_blanks hblanks
        _ = some (found.reverse ++ []) := rfl
  | @cons blanks chars rest token tokens hblanks htoken hrest ih =>
      obtain ⟨hnext, hothers⟩ := List.isChain_cons.mp hapart
      have hends : token.isBare = true → ∀ c ∈ rest.head?, isDelimiter c = true := fun hbare =>
        hrest.head?_isDelimiter fun next hmem => hnext next hmem hbare
      rw [List.append_assoc, scanFrom_blanks hblanks, scanFrom_token htoken hends, ih hothers,
        List.reverse_cons, List.append_assoc, List.singleton_append]

theorem scan_of_spells {text : String} {tokens : List Token} (hspells : Spells text.toList tokens)
    (hapart : Apart tokens) : scan text = some tokens :=
  scanFrom_spells hspells hapart []

end SignalScript.Json.Token
