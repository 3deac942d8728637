import DraftLedger.Text.Digits
import DraftLedger.Binary64.Shortest

/-!
# Decimal numerals

A numeral is a number as it is written: sign, whole part, fraction, exponent.

* `Numeral` : the parts, as digits.
* `Numeral.text` : the parts put together.
* `Numeral.scan?` : reading one off the front of a text, in the grammar of JSON.
* `Numeral.ofInt`, `Binary64.numeral` : the numeral of an integer and of a finite number.
* `Numeral.binary64?` : the floating-point number that a numeral stands for.
-/

set_option autoImplicit false

namespace DraftLedger

/-- The power of ten at the end of a numeral. -/
structure Numeral.Exponent where
  negative : Bool
  digits : List Char
deriving DecidableEq

/-- A number as it is written. No fraction digits means that there is no point. -/
structure Numeral where
  negative : Bool
  whole : List Char
  fraction : List Char
  exponent : Option Numeral.Exponent
deriving DecidableEq

namespace Numeral

/-! ## Writing -/

/-- The exponent as it is written, where a positive one has the given sign. -/
def exponentText (plus : List Char) : Option Exponent → List Char
  | none => []
  | some e => 'e' :: ((if e.negative then ['-'] else plus) ++ e.digits)

/-- The numeral as it is written, where a positive exponent has the given sign. -/
def text (plus : List Char) (n : Numeral) : List Char :=
  (if n.negative then ['-'] else []) ++ n.whole ++
    (if n.fraction = [] then [] else '.' :: n.fraction) ++ exponentText plus n.exponent

/-! ## Reading -/

/-- The digits at the front of a text and the rest. -/
def scanDigits (cs : List Char) : List Char × List Char :=
  (cs.takeWhile Char.isDigit, cs.dropWhile Char.isDigit)

/-- The minus sign at the front of a text, if there is one. -/
def scanMinus : List Char → Bool × List Char
  | '-' :: cs => (true, cs)
  | cs => (false, cs)

/-- A whole part: a zero alone, or digits that start with another one. -/
def scanWhole? (cs : List Char) : Option (List Char × List Char) :=
  match scanDigits cs with
  | ([], _) => none
  | ('0' :: _ :: _, _) => none
  | (ds, rest) => some (ds, rest)

/-- A fraction, if a point follows; the point needs a digit. -/
def scanFraction? : List Char → Option (List Char × List Char)
  | '.' :: cs =>
    match scanDigits cs with
    | ([], _) => none
    | (ds, rest) => some (ds, rest)
  | cs => some ([], cs)

def scanExponentSign : List Char → Bool × List Char
  | '-' :: cs => (true, cs)
  | '+' :: cs => (false, cs)
  | cs => (false, cs)

/-- An exponent, if its mark follows; the mark needs a digit. -/
def scanExponent? (cs : List Char) : Option (Option Exponent × List Char) :=
  match cs with
  | [] => some (none, [])
  | c :: rest =>
    if c = 'e' ∨ c = 'E' then
      let (negative, rest) := scanExponentSign rest
      match scanDigits rest with
      | ([], _) => none
      | (ds, rest) => some (some ⟨negative, ds⟩, rest)
    else some (none, c :: rest)

def scan? (cs : List Char) : Option (Numeral × List Char) := do
  let (negative, cs) := scanMinus cs
  let (whole, cs) ← scanWhole? cs
  let (fraction, cs) ← scanFraction? cs
  let (exponent, cs) ← scanExponent? cs
  some (⟨negative, whole, fraction, exponent⟩, cs)

def ofText? (cs : List Char) : Option Numeral :=
  match scan? cs with
  | some (n, []) => some n
  | _ => none

/-! ## Numerals of numbers -/

def ofInt (n : Int) : Numeral := ⟨n < 0, Text.decimal n.natAbs, [], none⟩

/-- The integer that a numeral without point and exponent stands for. Minus zero is no integer. -/
def int? (n : Numeral) : Option Int :=
  if n.fraction = [] ∧ n.exponent = none then
    let m := Text.ofDecimal n.whole
    if n.negative then if m = 0 then none else some (-m) else some m
  else none

end Numeral

/-- Lays digits out as a numeral: in positional notation, always with a fraction, when the exponent
of the leading digit passes the test, else with one digit before the point and an exponent. -/
def Numeral.layOut (positional : Int → Bool) (negative : Bool) (digits : List Char)
    (exponent : Int) : Numeral :=
  let leading := exponent + digits.length - 1
  if positional leading then
    if 0 ≤ exponent then
      ⟨negative, digits ++ List.replicate exponent.toNat '0', ['0'], none⟩
    else if 0 ≤ leading then
      ⟨negative, digits.take (leading.toNat + 1), digits.drop (leading.toNat + 1), none⟩
    else
      ⟨negative, ['0'], List.replicate (-leading - 1).toNat '0' ++ digits, none⟩
  else
    ⟨negative, digits.take 1, digits.drop 1, some ⟨leading < 0, Text.decimal leading.natAbs⟩⟩

/-- The numeral of a finite number: the fewest digits that read back, laid out. -/
def Binary64.numeral (tie : Binary64.Tie) (positional : Int → Bool) (x : Binary64) : Numeral :=
  if x.isZero then ⟨x.negative, ['0'], ['0'], none⟩
  else
    let (digits, exponent) := x.shortest tie
    Numeral.layOut positional x.negative (Text.decimal digits) exponent

/-! ## The floating-point number of a numeral

The significand keeps as many leading digits as fit a word of 64 bits; the digits left out only
count for the power of ten.  The significand is rounded to a floating-point number and then scaled
by powers of ten that are rounded themselves, each step rounding once more.  So a numeral with many
digits or a large exponent may miss the nearest number by a little. -/

namespace Numeral

/-- The largest word of 64 bits. -/
def wordMax : Nat := 0xffffffffffffffff

/-- Takes in digits while the significand fits a word. Gives the significand and the digits left. -/
def absorb (significand : Nat) : List Char → Nat × List Char
  | [] => (significand, [])
  | d :: ds =>
    let next := significand * 10 + (d.toNat - 48)
    if wordMax < next then (significand, d :: ds) else absorb next ds

/-- The significand of a numeral and the power of ten that its own digits leave open. -/
def significand (n : Numeral) : Nat × Int :=
  let (s, leftWhole) := absorb 0 n.whole
  let (s, leftFraction) := absorb s n.fraction
  (s, (leftWhole.length : Int) - (n.fraction.length - leftFraction.length : Nat))

/-- The exponents that can be told apart: beyond this size only the sign matters. -/
def exponentMax : Nat := 0x7fffffff

/-- The power of ten with this exponent, rounded. -/
def powerOfTen (e : Nat) : Binary64 := Binary64.ofRatio false (Nat.pow 10 e) 1

/-- Scales by a power of ten: once for exponents up to 308, below that in steps of 308 until the
value is zero or the rest is small enough. `none` when the value grows beyond the finite numbers. -/
def scaleByTen? (x : Binary64) (e : Int) : Nat → Option Binary64
  | 0 => some x
  | steps + 1 =>
    if e.natAbs ≤ 308 then
      if 0 ≤ e then
        let y := x.mul (powerOfTen e.natAbs)
        if y.isFinite then some y else none
      else some (x.div (powerOfTen e.natAbs))
    else if x.isZero then some x
    else if 0 ≤ e then none
    else scaleByTen? (x.div (powerOfTen 308)) (e + 308) steps

/-- The floating-point number that a numeral stands for, or `none` when it is too large. -/
def binary64? (n : Numeral) : Option Binary64 := do
  let (s, e) := n.significand
  let signed (x : Binary64) : Binary64 := if n.negative then x.neg else x
  let scaled (e : Int) : Option Binary64 := (scaleByTen? (Binary64.ofInt s) e 5).map signed
  match n.exponent with
  | none => scaled e
  | some x =>
    let size := Text.ofDecimal x.digits
    if exponentMax < size then
      if s ≠ 0 ∧ x.negative = false then none else some (signed Binary64.zero)
    else scaled (if x.negative then e - size else e + size)

end Numeral

end DraftLedger
