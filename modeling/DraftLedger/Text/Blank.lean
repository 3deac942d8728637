/-!
# Blank characters

The blanks are the characters with the White_Space property.

* `isBlank` : the property.
* `dropBlanks`, `trim` : a text without the blanks at its start, or at both ends.
* `folded` : a typed word as it counts.
-/

set_option autoImplicit false

namespace DraftLedger.Text

/-- Whether the character has the White_Space property. -/
def isBlank (c : Char) : Bool :=
  let n := c.toNat
  (9 ≤ n && n ≤ 13) || n == 0x20 || n == 0x85 || n == 0xa0 || n == 0x1680 ||
    (0x2000 ≤ n && n ≤ 0x200a) || n == 0x2028 || n == 0x2029 || n == 0x202f || n == 0x205f ||
    n == 0x3000

def dropBlanks (s : List Char) : List Char := s.dropWhile isBlank

def trim (s : List Char) : List Char := (dropBlanks (dropBlanks s).reverse).reverse

theorem dropBlanks_cons {c : Char} (cs : List Char) (h : isBlank c = false) :
    dropBlanks (c :: cs) = c :: cs := by
  simp [dropBlanks, h]

/-- Lower case for the letters A to Z; every other character stays. -/
def lowerAscii (s : List Char) : List Char := s.map Char.toLower

/-- A typed word as it counts: without blanks around it, and the same in any case of the letters A
to Z. -/
def folded (s : String) : String := String.ofList (lowerAscii (trim s.toList))

end DraftLedger.Text
