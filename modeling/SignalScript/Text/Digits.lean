/-!
# Numerals

Numbers spelled with digits, as JSON and YAML documents hold them.
-/

namespace SignalScript.Text

/-- The value of a digit in a base up to 16; letters may be of either case. -/
def digit? (base : Nat) (c : Char) : Option Nat :=
  let value :=
    if '0' ≤ c ∧ c ≤ '9' then c.toNat - 0x30
    else if 'a' ≤ c ∧ c ≤ 'f' then c.toNat - 0x57
    else if 'A' ≤ c ∧ c ≤ 'F' then c.toNat - 0x37
    else base
  if value < base then some value else none

/-- The digit of base 16 that a number below 16 is. -/
def hexDigit (value : Nat) : Char :=
  if value < 10 then Char.ofNat (0x30 + value) else Char.ofNat (0x57 + value)

/-- The number that digits of a base spell; at least one digit is needed. -/
def ofDigits? (base : Nat) (digits : List Char) : Option Nat :=
  if digits.isEmpty then
    none
  else
    digits.foldlM (fun value c => (digit? base c).map (base * value + ·)) 0

/-- The number that decimal digits without leading zeros spell. -/
def natural? : List Char → Option Nat
  | ['0'] => some 0
  | '0' :: _ => none
  | digits => ofDigits? 10 digits

end SignalScript.Text
