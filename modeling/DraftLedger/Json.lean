import DraftLedger.Numeral

/-!
# JSON as written

A JSON text is a tree: members keep the order and the repetitions of the text, and numbers keep
their digits.  A text can also spell strings that are none, with one half of a surrogate pair; such
a string, and an object with such a key, has a place in the tree but nothing to be read from it.

* `Json` : the tree.
* `Json.text` : the compact text of a tree.
* `Json.read?` : the tree of a text.
* `Json.depth`, `Json.depthLimit` : how deeply arrays and objects are nested, and may be.
-/

set_option autoImplicit false

namespace DraftLedger

/-- A JSON text as a tree. -/
inductive Json where
  | null
  | bool (value : Bool)
  | number (numeral : Numeral)
  | string (value : String)
  | array (items : List Json)
  | object (members : List (String × Json))
  /-- A string with half of a surrogate pair, or an object with such a key. -/
  | illegible

instance : Inhabited Json := ⟨.null⟩

namespace Json

/-! ## Writing -/

/-- How one character is written inside a string: the two delimiters and the control characters are
escaped, every other character stands for itself. -/
def escapedChar (c : Char) : List Char :=
  if c = '"' then ['\\', '"']
  else if c = '\\' then ['\\', '\\']
  else if c = '\x08' then ['\\', 'b']
  else if c = '\x0c' then ['\\', 'f']
  else if c = '\n' then ['\\', 'n']
  else if c = '\r' then ['\\', 'r']
  else if c = '\t' then ['\\', 't']
  else if c.toNat < 0x20 then
    ['\\', 'u', '0', '0', Text.hexDigit (c.toNat / 16), Text.hexDigit (c.toNat % 16)]
  else [c]

def stringText (s : String) : List Char := '"' :: s.toList.flatMap escapedChar ++ ['"']

mutual

/-- The compact text of a tree. What is illegible stands as the least string that is. -/
def text : Json → List Char
  | .null => ['n', 'u', 'l', 'l']
  | .bool true => ['t', 'r', 'u', 'e']
  | .bool false => ['f', 'a', 'l', 's', 'e']
  | .number n => n.text ['+']
  | .string s => stringText s
  | .array items => '[' :: itemsText items
  | .object members => '\x7b' :: membersText members
  | .illegible => ['"', '\\', 'u', 'd', '8', '0', '0', '"']

/-- The items of an array with the closing bracket. -/
def itemsText : List Json → List Char
  | [] => [']']
  | [item] => item.text ++ [']']
  | item :: rest => item.text ++ ',' :: itemsText rest

/-- The members of an object with the closing brace. -/
def membersText : List (String × Json) → List Char
  | [] => ['\x7d']
  | [(key, value)] => stringText key ++ ':' :: value.text ++ ['\x7d']
  | (key, value) :: rest => stringText key ++ ':' :: value.text ++ ',' :: membersText rest

end

/-- The compact text of a tree, as one string. -/
def render (j : Json) : String := String.ofList j.text

/-! ## Reading -/

/-- Whether the character may stand between the parts of a JSON text. -/
def isSpace (c : Char) : Bool := c = ' ' || c = '\n' || c = '\t' || c = '\r'

def skipSpace (cs : List Char) : List Char := cs.dropWhile isSpace

/-- The code unit that four hexadecimal digits spell. -/
def codeUnit? (a b c d : Char) : Option Nat := do
  let a ← Text.hexValue? a
  let b ← Text.hexValue? b
  let c ← Text.hexValue? c
  let d ← Text.hexValue? d
  some (((a * 16 + b) * 16 + c) * 16 + d)

/-- The character that a one-letter escape stands for. -/
def escape? : Char → Option Char
  | '"' => some '"'
  | '\\' => some '\\'
  | '/' => some '/'
  | 'b' => some '\x08'
  | 'f' => some '\x0c'
  | 'n' => some '\n'
  | 'r' => some '\r'
  | 't' => some '\t'
  | _ => none

def isLeading (u : Nat) : Bool := 0xd800 ≤ u && u ≤ 0xdbff

def isTrailing (u : Nat) : Bool := 0xdc00 ≤ u && u ≤ 0xdfff

/-- The character beyond the sixteen-bit range that two code units spell. -/
def pairedChar (u v : Nat) : Char :=
  Char.ofNat (0x10000 + (u - 0xd800) * 0x400 + (v - 0xdc00))

/-- Reads a string after its opening quote; `seen` holds the characters read so far, the last one
first, and none once half of a pair stood without the other. -/
def scanString? (seen : Option (List Char)) : List Char → Option (Option (List Char) × List Char)
  | [] => none
  | '"' :: rest => some (seen.map List.reverse, rest)
  | '\\' :: 'u' :: a :: b :: c :: d :: rest =>
    match codeUnit? a b c d with
    | none => none
    | some u =>
      if isLeading u then
        match rest with
        | '\\' :: 'u' :: e :: f :: g :: h :: after =>
          match codeUnit? e f g h with
          | none => none
          | some v =>
            if isTrailing v then scanString? (seen.map (pairedChar u v :: ·)) after
            else scanString? none after
        | rest => scanString? none rest
      else if isTrailing u then scanString? none rest
      else scanString? (seen.map (Char.ofNat u :: ·)) rest
  | '\\' :: c :: rest =>
    match escape? c with
    | none => none
    | some c => scanString? (seen.map (c :: ·)) rest
  | c :: rest =>
    if c.toNat < 0x20 || c = '\\' then none else scanString? (seen.map (c :: ·)) rest

def ofChars : Option (List Char) → Json
  | some cs => .string (String.ofList cs)
  | none => .illegible

def ofMembers : Option (List (String × Json)) → Json
  | some members => .object members
  | none => .illegible

def withMember (key : Option (List Char)) (value : Json) (rest : Option (List (String × Json))) :
    Option (List (String × Json)) :=
  match key, rest with
  | some key, some rest => some ((String.ofList key, value) :: rest)
  | _, _ => none

mutual

/-- Reads a value off the front of a text. The first argument bounds the nesting of calls. -/
def scan? : Nat → List Char → Option (Json × List Char)
  | 0, _ => none
  | fuel + 1, cs =>
    match skipSpace cs with
    | 'n' :: 'u' :: 'l' :: 'l' :: rest => some (.null, rest)
    | 't' :: 'r' :: 'u' :: 'e' :: rest => some (.bool true, rest)
    | 'f' :: 'a' :: 'l' :: 's' :: 'e' :: rest => some (.bool false, rest)
    | '"' :: rest =>
      match scanString? (some []) rest with
      | none => none
      | some (s, rest) => some (ofChars s, rest)
    | '[' :: rest =>
      match skipSpace rest with
      | ']' :: rest => some (.array [], rest)
      | rest =>
        match scanItems? fuel rest with
        | none => none
        | some (items, rest) => some (.array items, rest)
    | '\x7b' :: rest =>
      match skipSpace rest with
      | '\x7d' :: rest => some (.object [], rest)
      | rest =>
        match scanMembers? fuel rest with
        | none => none
        | some (members, rest) => some (ofMembers members, rest)
    | cs =>
      match Numeral.scan? cs with
      | none => none
      | some (n, rest) => some (.number n, rest)

/-- Reads the items of an array up to its closing bracket. -/
def scanItems? : Nat → List Char → Option (List Json × List Char)
  | 0, _ => none
  | fuel + 1, cs =>
    match scan? fuel cs with
    | none => none
    | some (item, rest) =>
      match skipSpace rest with
      | ']' :: rest => some ([item], rest)
      | ',' :: rest =>
        match scanItems? fuel rest with
        | none => none
        | some (items, rest) => some (item :: items, rest)
      | _ => none

/-- Reads the members of an object up to its closing brace; none when a key is illegible. -/
def scanMembers? : Nat → List Char → Option (Option (List (String × Json)) × List Char)
  | 0, _ => none
  | fuel + 1, cs =>
    match skipSpace cs with
    | '"' :: rest =>
      match scanString? (some []) rest with
      | none => none
      | some (key, rest) =>
        match skipSpace rest with
        | ':' :: rest =>
          match scan? fuel rest with
          | none => none
          | some (value, rest) =>
            match skipSpace rest with
            | '\x7d' :: rest => some (withMember key value (some []), rest)
            | ',' :: rest =>
              match scanMembers? fuel rest with
              | none => none
              | some (members, rest) => some (withMember key value members, rest)
            | _ => none
        | _ => none
    | _ => none

end

/-- The tree of a text, or `none` when the text is not one JSON value between space. -/
def ofText? (cs : List Char) : Option Json :=
  match scan? (2 * cs.length + 2) cs with
  | some (j, rest) => if skipSpace rest = [] then some j else none
  | none => none

def read? (s : String) : Option Json := ofText? s.toList

/-! ## Looking at a tree -/

mutual

def depth : Json → Nat
  | .array items => itemsDepth items + 1
  | .object members => membersDepth members + 1
  | _ => 0

def itemsDepth : List Json → Nat
  | [] => 0
  | item :: rest => max item.depth (itemsDepth rest)

/-- The greatest depth of the values of the members. -/
def membersDepth : List (String × Json) → Nat
  | [] => 0
  | (_, value) :: rest => max value.depth (membersDepth rest)

end

/-- Arrays and objects may be nested this deeply in what is read from a text, and no deeper. -/
def depthLimit : Nat := 127

/-- The values of the members with this key, in order. -/
def membersNamed (key : String) (members : List (String × Json)) : List Json :=
  members.filterMap fun m => if m.1 = key then some m.2 else none

def ofInt (n : Int) : Json := .number (Numeral.ofInt n)

def ofNat (n : Nat) : Json := .number (Numeral.ofInt n)

end Json

end DraftLedger
