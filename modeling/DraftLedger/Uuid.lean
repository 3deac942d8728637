import DraftLedger.Text.Blank
import DraftLedger.Text.Digits

/-!
# Universally unique identifiers

* `Uuid` : sixteen bytes.
* `Uuid.text` : thirty-two lower-case digits in groups of 8, 4, 4, 4 and 12, with hyphens.
* `Uuid.read?` : the same in any case, plain, without hyphens, between braces or as a name.
-/

set_option autoImplicit false

namespace DraftLedger

/-- An identifier of sixteen bytes. -/
structure Uuid where
  bytes : List UInt8
  length_eq : bytes.length = 16
deriving DecidableEq

namespace Uuid

/-- The identifier with these bytes, if there are sixteen. -/
def ofBytes? (bytes : List UInt8) : Option Uuid :=
  if h : bytes.length = 16 then some ⟨bytes, h⟩ else none

/-- The hexadecimal digits, without hyphens. -/
def digits (u : Uuid) : List Char := Text.hexBytes Text.hexDigit u.bytes

def text (u : Uuid) : List Char :=
  let ds := u.digits
  ds.take 8 ++ '-' :: (ds.drop 8).take 4 ++ '-' :: (ds.drop 12).take 4 ++
    '-' :: (ds.drop 16).take 4 ++ '-' :: ds.drop 20

def render (u : Uuid) : String := String.ofList u.text

/-- Thirty-two hexadecimal digits. -/
def readDigits? (cs : List Char) : Option Uuid :=
  match Text.ofHexBytes? cs with
  | some bytes => ofBytes? bytes
  | none => none

def readHyphenated? (cs : List Char) : Option Uuid :=
  if cs.length = 36 ∧ cs[8]? = some '-' ∧ cs[13]? = some '-' ∧ cs[18]? = some '-' ∧
      cs[23]? = some '-' then
    readDigits? (cs.take 8 ++ (cs.drop 9).take 4 ++ (cs.drop 14).take 4 ++
      (cs.drop 19).take 4 ++ cs.drop 24)
  else none

/-- The start of an identifier as a uniform resource name; its case does not matter. -/
def nameStart : List Char := ['u', 'r', 'n', ':', 'u', 'u', 'i', 'd', ':']

/-- The identifier that a text spells: thirty-two digits, the hyphenated form, that form between
braces, or that form as a uniform resource name. -/
def read? (cs : List Char) : Option Uuid :=
  if cs.length = 32 then readDigits? cs
  else if cs.length = 36 then readHyphenated? cs
  else if cs.length = 38 then
    match cs with
    | '\x7b' :: rest => if rest.getLast? = some '\x7d' then readHyphenated? rest.dropLast else none
    | _ => none
  else
    if Text.lowerAscii (cs.take nameStart.length) = nameStart then
      readHyphenated? (cs.drop nameStart.length)
    else none

end Uuid

end DraftLedger
