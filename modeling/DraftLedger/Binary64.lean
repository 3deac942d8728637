/-!
# Binary floating-point numbers of 64 bits

A number is its word: a sign bit, eleven exponent bits and fifty-two fraction bits.  Arithmetic is
exact on natural numbers, followed by one rounding to the nearest number, ties to the even word.

* `Binary64` : the word.
* `Binary64.significand`, `Binary64.scale` : a finite magnitude is `significand * 2 ^ scale`.
* `Binary64.ofRatio` : the number nearest to a quotient of natural numbers.
* `Binary64.mul`, `Binary64.div` : product and quotient of finite numbers, rounded once.
* `Binary64.numericallyEqual` : equality of values, where the two zeros are equal.
-/

set_option autoImplicit false

namespace DraftLedger

/-- A floating-point number, given by its word. Two numbers are equal when their words are, so the
two zeros differ and a not-a-number equals itself. -/
structure Binary64 where
  bits : UInt64
deriving DecidableEq

namespace Binary64

/-! ## Reading the word -/

/-- The word of which only the sign bit is set. -/
def signBit : Nat := 0x8000000000000000

/-- The least significand of a number that is not subnormal, `2 ^ 52`. -/
def leastNormal : Nat := 0x10000000000000

def negative (x : Binary64) : Bool := signBit ≤ x.bits.toNat

def magnitude (x : Binary64) : Nat := x.bits.toNat % signBit

/-- The words of infinities and not-a-numbers start here. -/
def infinityMagnitude : Nat := 2047 * leastNormal

/-- Whether the number is neither infinite nor not-a-number. -/
def isFinite (x : Binary64) : Bool := x.magnitude < infinityMagnitude

/-- Whether the number is not-a-number. -/
def isNaN (x : Binary64) : Bool := infinityMagnitude < x.magnitude

/-- Whether the number is one of the two zeros. -/
def isZero (x : Binary64) : Bool := x.magnitude = 0

/-- The integer significand of a finite number. -/
def significand (x : Binary64) : Nat :=
  if x.magnitude < leastNormal then x.magnitude else leastNormal + x.magnitude % leastNormal

/-- The power of two by which the significand of a finite number is scaled. -/
def scale (x : Binary64) : Int :=
  if x.magnitude < leastNormal then -1074 else (x.magnitude / leastNormal : Nat) - 1075

/-- Numerator and denominator of the magnitude of a finite number. -/
def ratio (x : Binary64) : Nat × Nat :=
  if 0 ≤ x.scale then (x.significand <<< x.scale.toNat, 1)
  else (x.significand, 1 <<< (-x.scale).toNat)

/-! ## Rounding -/

/-- The whole number nearest to a quotient, the even one of two at the same distance. -/
def roundQuotient (num den : Nat) : Nat :=
  let q := num / den
  let r := num % den
  if 2 * r < den then q
  else if den < 2 * r then q + 1
  else if q % 2 = 0 then q
  else q + 1

/-- The magnitude nearest to a quotient, the infinite one when the quotient is too large. -/
def roundedMagnitude (num den : Nat) : Nat :=
  if num = 0 then 0
  else
    let estimate : Int := max ((Nat.log2 num : Int) - Nat.log2 den - 53) (-1074)
    let quotientAt (s : Int) : Nat × Nat :=
      if 0 ≤ s then (num, den <<< s.toNat) else (num <<< (-s).toNat, den)
    let (n, d) := quotientAt estimate
    let s := if 2 * leastNormal ≤ n / d then estimate + 1 else estimate
    let (n, d) := quotientAt s
    min ((s + 1074).toNat * leastNormal + roundQuotient n d) infinityMagnitude

def ofMagnitude (isNegative : Bool) (magnitude : Nat) : Binary64 :=
  ⟨UInt64.ofNat ((if isNegative then signBit else 0) + magnitude)⟩

/-- The number nearest to a quotient of natural numbers, with a sign. -/
def ofRatio (isNegative : Bool) (num den : Nat) : Binary64 :=
  ofMagnitude isNegative (roundedMagnitude num den)

/-- The number nearest to an integer. -/
def ofInt (n : Int) : Binary64 := ofRatio (n < 0) n.natAbs 1

/-- The product of two finite numbers, rounded. -/
def mul (x y : Binary64) : Binary64 :=
  ofRatio (x.negative != y.negative) (x.ratio.1 * y.ratio.1) (x.ratio.2 * y.ratio.2)

/-- The quotient of two finite numbers, the second not zero, rounded. -/
def div (x y : Binary64) : Binary64 :=
  ofRatio (x.negative != y.negative) (x.ratio.1 * y.ratio.2) (x.ratio.2 * y.ratio.1)

def neg (x : Binary64) : Binary64 := ofMagnitude (!x.negative) x.magnitude

/-! ## Special numbers and comparison -/

/-- The not-a-number that stands for all of them. -/
def nan : Binary64 := ⟨0x7ff8000000000000⟩

def infinity : Binary64 := ⟨0x7ff0000000000000⟩

def negInfinity : Binary64 := ⟨0xfff0000000000000⟩

def zero : Binary64 := ⟨0⟩

/-- Equality of values: the two zeros are equal, and a not-a-number equals nothing. -/
def numericallyEqual (x y : Binary64) : Bool :=
  !x.isNaN && !y.isNaN && (x.bits == y.bits || (x.isZero && y.isZero))

end Binary64

end DraftLedger
