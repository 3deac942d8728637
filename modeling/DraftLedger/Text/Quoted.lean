import DraftLedger.Text.Digits
import DraftLedger.Text.Printable

/-!
# Texts quoted for a message

A message shows a text between double quotes so that its characters can be told apart: quotes,
backslashes and the common control characters by a backslash form, other characters without a
visible form by their code point, all the rest as themselves.
-/

set_option autoImplicit false

namespace DraftLedger.Text

/-- How one character is shown inside double quotes. -/
def quotedChar (c : Char) : List Char :=
  if c = '\x00' then ['\\', '0']
  else if c = '\t' then ['\\', 't']
  else if c = '\r' then ['\\', 'r']
  else if c = '\n' then ['\\', 'n']
  else if c = '\\' then ['\\', '\\']
  else if c = '"' then ['\\', '"']
  else if isJoining c || isUnprintable c then
    ['\\', 'u', '\x7b'] ++ hexadecimal c.toNat ++ ['\x7d']
  else [c]

/-- A text between double quotes. -/
def quoted (s : String) : String :=
  String.ofList ('"' :: s.toList.flatMap quotedChar ++ ['"'])

end DraftLedger.Text
