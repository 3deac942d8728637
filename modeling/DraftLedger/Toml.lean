import DraftLedger.Text.Digits
import DraftLedger.Toml.Table

/-!
# Settings files

The part of TOML that settings need: keys with values, tables in braces and tables under headers,
where a value that is no table is a string, an integer or an empty array.  Every other value is
refused, since no setting has it.

* `Toml.read?` : the table that a text spells.
-/

set_option autoImplicit false

namespace DraftLedger.Toml

/-! ## Characters -/

/-- Whether the character may stand between the parts of a line. -/
def isSpace (c : Char) : Bool := c = ' ' || c = '\t'

def skipSpace (cs : List Char) : List Char := cs.dropWhile isSpace

/-- Whether the character may stand in a comment or a string: any but the controls, tabs apart. -/
def isPlain (c : Char) : Bool := c = '\t' || (0x20 ≤ c.toNat && c.toNat ≠ 0x7f)

/-- Whether the character may stand in a key without quotes. -/
def isBareKey (c : Char) : Bool := c.isAlphanum || c = '_' || c = '-'

/-- The rest after a line end, if the text starts with one. -/
def lineEnd? : List Char → Option (List Char)
  | '\n' :: rest => some rest
  | '\r' :: '\n' :: rest => some rest
  | _ => none

/-! ## Strings -/

/-- The number that hexadecimal digits spell. -/
def ofHex? (ds : List Char) : Option Nat :=
  ds.foldl (fun acc d => do some ((← acc) * 16 + (← Text.hexValue? d))) (some 0)

/-- The character with this code, if there is one. -/
def charOf? (code : Nat) : Option Char :=
  if code.isValidChar then some (Char.ofNat code) else none

/-- The character of an escape and the rest, read after the backslash. -/
def scanEscape? : List Char → Option (Char × List Char)
  | 'b' :: rest => some ('\x08', rest)
  | 't' :: rest => some ('\t', rest)
  | 'n' :: rest => some ('\n', rest)
  | 'f' :: rest => some ('\x0c', rest)
  | 'r' :: rest => some ('\r', rest)
  | '"' :: rest => some ('"', rest)
  | '\\' :: rest => some ('\\', rest)
  | 'u' :: rest =>
    if 4 ≤ rest.length then
      ((ofHex? (rest.take 4)).bind charOf?).map fun c => (c, rest.drop 4)
    else none
  | 'U' :: rest =>
    if 8 ≤ rest.length then
      ((ofHex? (rest.take 8)).bind charOf?).map fun c => (c, rest.drop 8)
    else none
  | _ => none

/-- A string of one line up to its closing quote, with escapes or without. The fuel bounds its
length. -/
def scanLine? (quote : Char) (escapes : Bool) :
    Nat → List Char → List Char → Option (String × List Char)
  | 0, _, _ => none
  | _, _, [] => none
  | fuel + 1, seen, c :: rest =>
    if c = quote then some (String.ofList seen.reverse, rest)
    else if c = '\\' ∧ escapes = true then
      match scanEscape? rest with
      | some (c, rest) => scanLine? quote escapes fuel (c :: seen) rest
      | none => none
    else if isPlain c then scanLine? quote escapes fuel (c :: seen) rest
    else none

/-- The quotes at the front of a text, at most five. -/
def leadingQuotes (quote : Char) (cs : List Char) : Nat :=
  ((cs.take 5).takeWhile fun c => c = quote).length

/-- The rest after a backslash that ends a line: space, line ends and space again, with at least one
line end. -/
def skipLines (cs : List Char) : Option (List Char) :=
  match lineEnd? (skipSpace cs) with
  | some rest => some (go rest.length rest)
  | none => none
where
  go : Nat → List Char → List Char
    | 0, cs => cs
    | fuel + 1, cs =>
      match lineEnd? (skipSpace cs) with
      | some rest => go fuel rest
      | none => skipSpace cs

/-- A string over several lines up to its three closing quotes; up to two more quotes before them
belong to it. The fuel bounds its length. -/
def scanLines? (quote : Char) (escapes : Bool) :
    Nat → List Char → List Char → Option (String × List Char)
  | 0, _, _ => none
  | _, _, [] => none
  | fuel + 1, seen, c :: rest =>
    if c = quote then
      let n := leadingQuotes quote (c :: rest)
      if 3 ≤ n then
        some (String.ofList (List.replicate (n - 3) quote ++ seen).reverse, (c :: rest).drop n)
      else scanLines? quote escapes fuel (c :: seen) rest
    else if c = '\\' ∧ escapes = true then
      match skipLines rest with
      | some rest => scanLines? quote escapes fuel seen rest
      | none =>
        match scanEscape? rest with
        | some (c, rest) => scanLines? quote escapes fuel (c :: seen) rest
        | none => none
    else
      match lineEnd? (c :: rest) with
      | some rest => scanLines? quote escapes fuel ('\n' :: seen) rest
      | none => if isPlain c then scanLines? quote escapes fuel (c :: seen) rest else none

def dropLineEnd (cs : List Char) : List Char := (lineEnd? cs).getD cs

def scanString? (cs : List Char) : Option (String × List Char) :=
  match cs with
  | '"' :: '"' :: '"' :: rest => scanLines? '"' true (rest.length + 1) [] (dropLineEnd rest)
  | '\'' :: '\'' :: '\'' :: rest => scanLines? '\'' false (rest.length + 1) [] (dropLineEnd rest)
  | '"' :: rest => scanLine? '"' true (rest.length + 1) [] rest
  | '\'' :: rest => scanLine? '\'' false (rest.length + 1) [] rest
  | _ => none

/-! ## Integers -/

/-- Digits of a base, where single underscores may stand between two digits. -/
def scanGrouped? (isDigit : Char → Bool) (cs : List Char) : Option (List Char × List Char) :=
  let run := cs.takeWhile fun c => isDigit c || c = '_'
  let grouped (run : List Char) : Bool :=
    run.head?.any isDigit && run.getLast?.any isDigit &&
      (run.zip (run.drop 1)).all fun p => p.1 ≠ '_' || p.2 ≠ '_'
  if grouped run then some (run.filter isDigit, cs.drop run.length) else none

/-- The greatest signed integer of 64 bits. -/
def integerMax : Int := 0x7fffffffffffffff

/-- An integer within the signed range of 64 bits. -/
def inRange? (n : Int) : Option Int := if -integerMax - 1 ≤ n ∧ n ≤ integerMax then some n else none

/-- The number that digits of a base spell. -/
def ofDigits (base : Nat) (ds : List Char) : Nat :=
  ds.foldl (fun acc d => acc * base + (Text.hexValue? d).getD 0) 0

/-- Decimal digits without a zero in front. -/
def scanDecimal? (cs : List Char) : Option (Nat × List Char) :=
  match scanGrouped? Char.isDigit cs with
  | some (['0'], rest) => if cs.length = rest.length + 1 then some (0, rest) else none
  | some ('0' :: _, _) => none
  | some (ds, rest) => some (ofDigits 10 ds, rest)
  | none => none

/-- An integer: decimal with an optional sign, or hexadecimal, octal or binary with the mark of its
base. -/
def scanInteger? (cs : List Char) : Option (Int × List Char) :=
  let based (base : Nat) (isDigit : Char → Bool) (rest : List Char) : Option (Int × List Char) := do
    let (ds, rest) ← scanGrouped? isDigit rest
    some (← inRange? (ofDigits base ds), rest)
  match cs with
  | '0' :: 'x' :: rest => based 16 (fun c => (Text.hexValue? c).isSome) rest
  | '0' :: 'o' :: rest => based 8 (fun c => '0' ≤ c && c ≤ '7') rest
  | '0' :: 'b' :: rest => based 2 (fun c => c = '0' || c = '1') rest
  | '-' :: rest => do
    let (n, rest) ← scanDecimal? rest
    some (← inRange? (-(n : Int)), rest)
  | '+' :: rest => do
    let (n, rest) ← scanDecimal? rest
    some (← inRange? n, rest)
  | rest => do
    let (n, rest) ← scanDecimal? rest
    some (← inRange? n, rest)

/-! ## Keys -/

/-- One name of a key, bare or in quotes of one line. -/
def scanName? (cs : List Char) : Option (String × List Char) :=
  match cs with
  | '"' :: rest => scanLine? '"' true (rest.length + 1) [] rest
  | '\'' :: rest => scanLine? '\'' false (rest.length + 1) [] rest
  | cs =>
    match cs.takeWhile isBareKey with
    | [] => none
    | name => some (String.ofList name, cs.drop name.length)

/-- The names of a key from here on, with points between them and space around each, after those
seen so far. The fuel bounds their number. -/
def scanNames? : Nat → List String → List Char → Option (Path × List Char)
  | 0, _, _ => none
  | fuel + 1, way, cs => do
    let (name, rest) ← scanName? (skipSpace cs)
    match skipSpace rest with
    | '.' :: rest => scanNames? fuel (way ++ [name]) rest
    | rest => some (⟨way, name⟩, rest)

def scanKey? (cs : List Char) : Option (Path × List Char) := scanNames? (cs.length + 1) [] cs

/-! ## Values -/

/-- The text after a comment, if it starts with one. -/
def skipComment : List Char → List Char
  | '#' :: rest => rest.dropWhile isPlain
  | cs => cs

/-- The text after the blank lines and comments at its start. The fuel bounds their number. -/
def skipBlank : Nat → List Char → List Char
  | 0, cs => cs
  | fuel + 1, cs =>
    match lineEnd? (skipComment (skipSpace cs)) with
    | some rest => skipBlank fuel rest
    | none => skipSpace cs

def scanScalar? (cs : List Char) : Option (Value × List Char) :=
  match scanString? cs with
  | some (s, rest) => some (.string s, rest)
  | none => (scanInteger? cs).map fun r => (.integer r.1, r.2)

mutual

/-- A value. The fuel bounds the members and levels of its tables. -/
def scanWithin? : Nat → List Char → Option (Value × List Char)
  | 0, _ => none
  | fuel + 1, '{' :: rest =>
    match skipSpace rest with
    | '}' :: rest => some (.table .braces Table.empty, rest)
    | rest => scanMembers? fuel Table.empty rest
  | _ + 1, '[' :: rest =>
    match skipBlank (rest.length + 1) rest with
    | ']' :: rest => some (.emptyArray, rest)
    | _ => none
  | _ + 1, cs => scanScalar? cs

/-- The members of a table in braces from here on, after those seen so far. -/
def scanMembers? : Nat → Table → List Char → Option (Value × List Char)
  | 0, _, _ => none
  | fuel + 1, seen, cs => do
    let (key, cs) ← scanKey? cs
    match cs with
    | '=' :: cs =>
      let (value, cs) ← scanWithin? fuel (skipSpace cs)
      let seen ← seen.put? key value
      match skipSpace cs with
      | ',' :: rest => scanMembers? fuel seen rest
      | '}' :: rest => some (.table .braces seen, rest)
      | _ => none
    | _ => none

end

def scanValue? (cs : List Char) : Option (Value × List Char) := scanWithin? (cs.length + 1) cs

/-! ## Lines -/

/-- The rest after the end of a line, where a comment may stand before it; nothing is left after the
last line. -/
def endLine? (cs : List Char) : Option (List Char) :=
  let rest := skipComment (skipSpace cs)
  if rest.isEmpty then some [] else lineEnd? rest

/-- What the lines so far have made, and the header that the next keys stand under. -/
structure Reading where
  table : Table
  header : List String

/-- One line that is not blank: the header of a table, or a key with its value. -/
def scanEntry? (r : Reading) (cs : List Char) : Option (Reading × List Char) :=
  match cs with
  | '[' :: cs => do
    let (path, cs) ← scanKey? cs
    match cs with
    | ']' :: rest => some (⟨← r.table.open? path, path.names⟩, rest)
    | _ => none
  | cs => do
    let (path, cs) ← scanKey? cs
    match cs with
    | '=' :: cs =>
      let (value, rest) ← scanValue? (skipSpace cs)
      some ({ r with table := ← r.table.putUnder? r.header path value }, rest)
    | _ => none

/-- The lines of a text from here on. The fuel bounds their number. -/
def scanLinesFrom? : Nat → Reading → List Char → Option Table
  | 0, _, _ => none
  | fuel + 1, r, cs =>
    if (skipSpace cs).isEmpty then some r.table
    else
      match endLine? cs with
      | some rest => scanLinesFrom? fuel r rest
      | none => do
        let (r, rest) ← scanEntry? r (skipSpace cs)
        scanLinesFrom? fuel r (← endLine? rest)

/-- The table that a text spells. A byte order mark at the start does not count. -/
def read? (s : String) : Option Table :=
  let cs :=
    match s.toList with
    | '\ufeff' :: cs => cs
    | cs => cs
  scanLinesFrom? (cs.length + 2) ⟨Table.empty, []⟩ cs

end DraftLedger.Toml
