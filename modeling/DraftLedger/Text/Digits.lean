/-!
# Decimal and hexadecimal digits

* `decimal`, `decimalInt` : a number in decimal digits.
* `padded` : decimal digits with zeros in front up to a width.
* `ofDecimal` : the number that decimal digits spell.
* `hexDigit`, `hexValue?` : one hexadecimal digit.
-/

set_option autoImplicit false

namespace DraftLedger.Text

/-- The decimal digits of a number, without needless zeros. -/
def decimal (n : Nat) : List Char := Nat.toDigits 10 n

/-- The decimal form of an integer, with a minus sign when it is negative. -/
def decimalInt (n : Int) : List Char :=
  if n < 0 then '-' :: decimal n.natAbs else decimal n.natAbs

/-- The decimal digits of a number, with zeros in front up to `width`. -/
def padded (width n : Nat) : List Char :=
  List.replicate (width - (decimal n).length) '0' ++ decimal n

/-- The number that decimal digits spell. -/
def ofDecimal (ds : List Char) : Nat := Nat.ofDigitChars 10 ds 0

/-- Reading the digits of a number gives the number. -/
theorem ofDecimal_decimal (n : Nat) : ofDecimal (decimal n) = n :=
  Nat.ofDigitChars_toDigits (by decide) (by decide)

/-- The decimal form of a number holds digits only. -/
theorem isDigit_of_mem_decimal {n : Nat} {c : Char} (h : c ∈ decimal n) : c.isDigit = true :=
  Nat.isDigit_of_mem_toDigits (by decide) (by decide) h

/-- The lower-case hexadecimal digit of a number below 16. -/
def hexDigit (n : Nat) : Char :=
  if n < 10 then Char.ofNat (48 + n) else Char.ofNat (87 + n)

/-- The upper-case hexadecimal digit of a number below 16. -/
def hexDigitUpper (n : Nat) : Char :=
  if n < 10 then Char.ofNat (48 + n) else Char.ofNat (55 + n)

/-- The value of a hexadecimal digit of either case. -/
def hexValue? (c : Char) : Option Nat :=
  if '0' ≤ c ∧ c ≤ '9' then some (c.toNat - 48)
  else if 'a' ≤ c ∧ c ≤ 'f' then some (c.toNat - 87)
  else if 'A' ≤ c ∧ c ≤ 'F' then some (c.toNat - 55)
  else none

theorem hexValue?_hexDigit : ∀ n < 16, hexValue? (hexDigit n) = some n := by decide

/-- The hexadecimal form of bytes, two digits a byte, with the given digit for each half. -/
def hexBytes (digit : Nat → Char) (bytes : List UInt8) : List Char :=
  bytes.flatMap fun b => [digit (b.toNat / 16), digit (b.toNat % 16)]

/-- The bytes that pairs of hexadecimal digits spell. -/
def ofHexBytes? : List Char → Option (List UInt8)
  | [] => some []
  | [_] => none
  | a :: b :: rest =>
    match hexValue? a, hexValue? b, ofHexBytes? rest with
    | some hi, some lo, some tail => some (UInt8.ofNat (hi * 16 + lo) :: tail)
    | _, _, _ => none

/-- The hexadecimal digits of a number, without needless zeros. -/
def hexadecimal (n : Nat) : List Char := Nat.toDigits 16 n

end DraftLedger.Text
