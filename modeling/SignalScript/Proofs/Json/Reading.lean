import SignalScript.Json.Text
import SignalScript.Proofs.Json.Spelling

/-!
# Reading values

The tokens that a value is written with are put together to that value again, whatever
stands around it.  So every text that spells these tokens is read as the value, and the text
without blanks is one of them.
-/

namespace SignalScript.Json

/-! ## Tokens are put together -/

namespace Reading

/-- An array may begin with every value. -/
theorem run_arrayStart (value : Json) (around : List Frame) (rest : List Token) :
    (arrayStart around).run (value.tokens ++ rest) =
      (beforeValue (.array [] :: around)).run (value.tokens ++ rest) := by
  rcases value with _ | _ | _ | _ | (_ | _) | (_ | ⟨⟨_, _⟩, _⟩) <;> rfl

-- The recursion is that of the writer.  The frames around a value and the tokens behind it stay
-- general, so that a value within an array or an object is an instance.
mutual

/-- The tokens of a value are read as this value, whatever is open around it. -/
theorem run_tokens (value : Json) (around : List Frame) (rest : List Token) :
    (beforeValue around).run (value.tokens ++ rest) = (afterValue around value).run rest := by
  match value with
  | .null => rfl
  | .bool _ => rfl
  | .integer _ => rfl
  | .string _ => rfl
  | .array [] => rfl
  | .array (first :: items) =>
      calc (beforeValue around).run ((Json.array (first :: items)).tokens ++ rest)
        _ = (arrayStart around).run (first.tokens ++ (itemTokens items ++ rest)) := by
            simp only [tokens, List.cons_append, List.append_assoc]
            rfl
        _ = (afterValue (.array [] :: around) first).run (itemTokens items ++ rest) := by
            rw [run_arrayStart, run_tokens first]
        _ = (afterValue around (.array (first :: items))).run rest :=
            run_itemTokens items [] first around rest
  | .object [] => rfl
  | .object ((key, first) :: fields) =>
      calc (beforeValue around).run ((Json.object ((key, first) :: fields)).tokens ++ rest)
        _ = (beforeValue (.object [] key :: around)).run
              (first.tokens ++ (fieldTokens fields ++ rest)) := by
            simp only [tokens, List.cons_append, List.append_assoc]
            rfl
        _ = (afterValue (.object [] key :: around) first).run (fieldTokens fields ++ rest) :=
            run_tokens first _ _
        _ = (afterValue around (.object ((key, first) :: fields))).run rest :=
            run_fieldTokens fields [] key first around rest

/-- Further items join the ones before them. -/
theorem run_itemTokens (items before : List Json) (last : Json) (around : List Frame)
    (rest : List Token) :
    (afterValue (.array before :: around) last).run (itemTokens items ++ rest) =
      (afterValue around (.array ((last :: before).reverse ++ items))).run rest := by
  match items with
  | [] =>
      rw [List.append_nil]
      rfl
  | item :: items =>
      calc (afterValue (.array before :: around) last).run (itemTokens (item :: items) ++ rest)
        _ = (beforeValue (.array (last :: before) :: around)).run
              (item.tokens ++ (itemTokens items ++ rest)) := by
            simp only [itemTokens, List.cons_append, List.append_assoc]
            rfl
        _ = (afterValue (.array (last :: before) :: around) item).run
              (itemTokens items ++ rest) := run_tokens item _ _
        _ = (afterValue around (.array ((last :: before).reverse ++ item :: items))).run rest := by
            rw [run_itemTokens items, List.reverse_cons, List.append_assoc]
            rfl

/-- Further fields join the ones before them. -/
theorem run_fieldTokens (fields before : List (String × Json)) (key : String) (last : Json)
    (around : List Frame) (rest : List Token) :
    (afterValue (.object before key :: around) last).run (fieldTokens fields ++ rest) =
      (afterValue around (.object (((key, last) :: before).reverse ++ fields))).run rest := by
  match fields with
  | [] =>
      rw [List.append_nil]
      rfl
  | (next, value) :: fields =>
      calc (afterValue (.object before key :: around) last).run
            (fieldTokens ((next, value) :: fields) ++ rest)
        _ = (beforeValue (.object ((key, last) :: before) next :: around)).run
              (value.tokens ++ (fieldTokens fields ++ rest)) := by
            simp only [fieldTokens, List.cons_append, List.append_assoc]
            rfl
        _ = (afterValue (.object ((key, last) :: before) next :: around) value).run
              (fieldTokens fields ++ rest) := run_tokens value _ _
        _ = (afterValue around
              (.object (((key, last) :: before).reverse ++ (next, value) :: fields))).run rest := by
            rw [run_fieldTokens fields, List.reverse_cons, List.append_assoc]
            rfl

end

/-- Behind a whole value stands no bare token. -/
theorem step_afterValue_bare (around : List Frame) (value : Json) {token : Token}
    (hbare : token.isBare = true) : (afterValue around value).step token = none := by
  cases token with
  | null | bool _ | integer _ => rcases around with _ | ⟨_ | _, _⟩ <;> rfl
  | _ => cases hbare

/-- A bare token is a whole value. -/
theorem step_bare {reading next : Reading} {token : Token} (hbare : token.isBare = true)
    (hstep : reading.step token = some next) : ∃ around value, next = afterValue around value := by
  cases reading with
  | afterValue around value =>
      rw [step_afterValue_bare around value hbare] at hstep
      cases hstep
  | beforeValue around | arrayStart around =>
      cases token with
      | null | bool _ | integer _ =>
          cases hstep
          exact ⟨_, _, rfl⟩
      | _ => cases hbare
  | _ =>
      cases token with
      | null | bool _ | integer _ => cases hstep
      | _ => cases hbare

/-- No two bare tokens follow each other where tokens can be put together. -/
theorem apart_of_run {reading last : Reading} {tokens : List Token}
    (hrun : reading.run tokens = some last) : Token.Apart tokens := by
  induction tokens generalizing reading with
  | nil => exact .nil
  | cons token rest ih =>
      cases hstep : reading.step token with
      | none => simp [run, hstep] at hrun
      | some next =>
          have hrest : next.run rest = some last := by
            simpa only [run, hstep] using hrun
          refine List.isChain_cons.mpr ⟨?_, ih hrest⟩
          rintro follower hfollower hbare
          obtain ⟨around, value, rfl⟩ := step_bare hbare hstep
          obtain ⟨others, rfl⟩ := List.head?_eq_some_iff.mp hfollower
          by_contra hboth
          simp [run, step_afterValue_bare around value (by simpa using hboth)] at hrest

end Reading

theorem ofTokens?_tokens (value : Json) : ofTokens? value.tokens = some value := by
  have hrun := Reading.run_tokens value [] []
  rw [List.append_nil] at hrun
  rw [ofTokens?, hrun]
  rfl

/-! ## Texts are read -/

/-- Whether a reader reads every text that spells a value as this value. -/
def ReadsSpellings (reader : String → Option Json) (value : Json) : Prop :=
  ∀ text : String, Token.Spells text.toList value.tokens → reader text = some value

theorem read_of_spells (value : Json) : ReadsSpellings read value := by
  intro text hspells
  obtain ⟨last, hrun, -⟩ := Option.bind_eq_some_iff.mp (ofTokens?_tokens value)
  rw [read, Token.scan_of_spells hspells (Reading.apart_of_run hrun), Option.bind_some,
    ofTokens?_tokens]

namespace Token

theorem isHexDigit_hexDigit {value : Nat} (hvalue : value < 16) :
    IsHexDigit (Text.hexDigit value) value := by
  have hdigits : ∀ value < 16, Text.hexDigit value = value.digitChar := by decide
  exact ⟨hvalue, .inl (hdigits value hvalue)⟩

/-- Every character of a string is written in one of the ways to write it. -/
theorem spells_escape (c : Char) : SpellsChar (escape c) c := by
  unfold escape
  split
  · exact .letter (by decide)
  · exact .letter (by decide)
  · exact .letter (by decide)
  · exact .letter (by decide)
  · exact .letter (by decide)
  · rename_i hquote hescape _ _ _
    split
    · rename_i hcontrol
      have hzero : IsHexDigit '0' 0 := isHexDigit_hexDigit (by decide)
      have hhigh : IsHexDigit (Text.hexDigit (c.toNat / 16)) (c.toNat / 16) :=
        isHexDigit_hexDigit (by omega)
      have hlow : IsHexDigit (Text.hexDigit (c.toNat % 16)) (c.toNat % 16) :=
        isHexDigit_hexDigit (by omega)
      have hvalue : 0x1000 * 0 + 0x100 * 0 + 0x10 * (c.toNat / 16) + c.toNat % 16 = c.toNat := by
        omega
      have hunit := SpellsUnit.digits hzero hzero hhigh hlow
      rw [hvalue] at hunit
      exact .unit hunit
    · exact .itself (by omega) hquote hescape

theorem spells_flatMap_escape (text : List Char) : SpellsString (text.flatMap escape) text := by
  induction text with
  | nil => exact .nil
  | cons c text ih => exact .cons (spells_escape c) ih

theorem spells_text (token : Token) : SpellsToken token.text.toList token := by
  cases token with
  | string text =>
      have hquote : (string text).text.toList = '"' :: text.toList.flatMap escape ++ ['"'] := by
        simp [Token.text, quote]
      rw [hquote]
      exact .string (spells_flatMap_escape text.toList)
  | _ => exact .written (by rintro text ⟨⟩)

theorem spells_join (tokens : List Token) :
    Spells (String.join (tokens.map Token.text)).toList tokens := by
  induction tokens with
  | nil => exact .nil rfl
  | cons token tokens ih =>
      have hjoin : Spells ([] ++ token.text.toList ++ (String.join (tokens.map Token.text)).toList)
          (token :: tokens) := .cons rfl (spells_text token) ih
      simpa [String.join_cons] using hjoin

end Token

/-- The text without blanks spells the tokens of a value. -/
theorem spells_compact (value : Json) : Token.Spells value.compact.toList value.tokens :=
  Token.spells_join value.tokens

end SignalScript.Json
