import DraftLedger.Error

/-!
# Names and literals in SQL

* `Sql.quoteName`, `Sql.qualifiedName` : names of columns and tables in a dialect.
* `Sql.literal` : a cell as a literal that reads back as exactly that value, or the reason why the
  dialect has none.
* `Sql.isDecimal` : the texts that may stand as decimal literals.
-/

set_option autoImplicit false

namespace DraftLedger.Sql

/-! ## Quoting -/

/-- Writes one character twice wherever it stands. -/
def doubled (quote : Char) (cs : List Char) : List Char :=
  cs.flatMap fun c => if c = quote then [quote, quote] else [c]

/-- Characters between two others, the closing one written twice inside. -/
def enclosed (opening closing : Char) (s : String) : String :=
  String.ofList (opening :: doubled closing s.toList ++ [closing])

/-- A string in single quotes. -/
def stringLiteral (s : String) : String := enclosed '\'' '\'' s

/-- A character inside a MySQL string, where the backslash is an escape character. -/
def mysqlChar (c : Char) : List Char :=
  if c = '\\' then ['\\', '\\']
  else if c = '\'' then ['\'', '\'']
  else if c = '\x00' then ['\\', '0']
  else [c]

def mysqlString (s : String) : String :=
  String.ofList ('\'' :: s.toList.flatMap mysqlChar ++ ['\''])

/-- A string of national characters. -/
def nationalString (s : String) : String := "N" ++ stringLiteral s

def quoteName : Dialect → String → String
  | .postgres, s | .sqlite, s => enclosed '"' '"' s
  | .mysql, s => enclosed '\x60' '\x60' s
  | .sqlserver, s => enclosed '[' ']' s

/-- The name of a table with its schema, or with its database where databases take the place of
schemas. -/
def qualifiedName (d : Dialect) (t : Table) : String :=
  match d, t.schema with
  | .mysql, _ => quoteName d t.database ++ "." ++ quoteName d t.name
  | _, some schema => quoteName d schema ++ "." ++ quoteName d t.name
  | _, none => quoteName d t.name

/-! ## Decimals -/

def dropSign : List Char → List Char
  | '+' :: cs => cs
  | '-' :: cs => cs
  | cs => cs

/-- An exponent with at least one digit up to the end of the text, or nothing. -/
def isExponent : List Char → Bool
  | [] => true
  | c :: rest =>
    if c = 'e' ∨ c = 'E' then
      match Numeral.scanDigits (dropSign rest) with
      | ([], _) => false
      | (_, rest) => rest.isEmpty
    else false

/-- Whether the text is a decimal number: an optional sign, digits with at most one point and at
least one digit next to it, and an optional exponent. -/
def isDecimal (cs : List Char) : Bool :=
  let (whole, rest) := Numeral.scanDigits (dropSign cs)
  let (fraction, rest) :=
    match rest with
    | '.' :: rest => Numeral.scanDigits rest
    | rest => ([], rest)
  !(whole.isEmpty && fraction.isEmpty) && isExponent rest

/-! ## Literals -/

/-- The exponents of the leading digit that SQL literals write in positional notation. -/
def positional (leading : Int) : Bool := -4 ≤ leading && leading < 16

/-- A finite floating-point number in the fewest digits that read back. -/
def floatText (x : Binary64) : String :=
  String.ofList ((x.numeral .away positional).text [])

def refuse (d : Dialect) (c : Cell) (cause : UnsupportedCause) : Except Error String :=
  .error (.unsupportedValue d c.kindName cause)

/-- A floating-point literal; only Postgres has one for the numbers that are not finite. -/
def floatLiteral (d : Dialect) (x : Binary64) : Except Error String :=
  if x.isFinite then .ok (floatText x)
  else
    match d with
    | .postgres =>
      .ok (if x.isNaN then "'NaN'::float8"
        else if x.negative then "'-Infinity'::float8" else "'Infinity'::float8")
    | _ => refuse d (.float x) .nonFinite

/-- A decimal literal: the text without the blanks around it, if that is a decimal number. -/
def decimalLiteral (d : Dialect) (s : String) : Except Error String :=
  let trimmed := Text.trim s.toList
  if isDecimal trimmed then .ok (String.ofList trimmed)
  else refuse d (.decimal s) (.notDecimal s)

/-- A text literal; Postgres has none for texts with a NUL character. -/
def textLiteral (d : Dialect) (s : String) : Except Error String :=
  match d with
  | .postgres =>
    if s.toList.contains '\x00' then refuse d (.text s) .nulCharacter else .ok (stringLiteral s)
  | .mysql => .ok (mysqlString s)
  | .sqlite => .ok (stringLiteral s)
  | .sqlserver => .ok (nationalString s)

def booleanLiteral (d : Dialect) (b : Bool) : String :=
  match d with
  | .postgres => if b then "TRUE" else "FALSE"
  | _ => if b then "1" else "0"

/-- The literal of a date, of a time or of a timestamp: its text with the name of its type. -/
def temporalLiteral (d : Dialect) (type serverType : String) (cs : List Char) : String :=
  let quoted := "'" ++ String.ofList cs ++ "'"
  match d with
  | .postgres | .mysql => type ++ " " ++ quoted
  | .sqlite => quoted
  | .sqlserver => "CAST(" ++ quoted ++ " AS " ++ serverType ++ ")"

/-- The literal of an instant: the timestamp in universal time with its offset, where the type has
one. -/
def instantLiteral (d : Dialect) (t : Timestamp) : String :=
  let text := String.ofList (t.text ' ')
  match d with
  | .postgres => "TIMESTAMPTZ '" ++ text ++ "+00:00'"
  | .mysql => "TIMESTAMP '" ++ text ++ "'"
  | .sqlite => "'" ++ text ++ "+00:00'"
  | .sqlserver => "CAST('" ++ text ++ " +00:00' AS DATETIMEOFFSET)"

def uuidLiteral (d : Dialect) (u : Uuid) : String :=
  let quoted := "'" ++ u.render ++ "'"
  match d with
  | .postgres => quoted ++ "::uuid"
  | .mysql | .sqlite => quoted
  | .sqlserver => "CAST(" ++ quoted ++ " AS UNIQUEIDENTIFIER)"

def bytesLiteral (d : Dialect) (bytes : List UInt8) : String :=
  let lower := String.ofList (Text.hexBytes Text.hexDigit bytes)
  match d with
  | .postgres => "'\\x" ++ lower ++ "'::bytea"
  | .mysql | .sqlite => "X'" ++ lower ++ "'"
  | .sqlserver => "0x" ++ String.ofList (Text.hexBytes Text.hexDigitUpper bytes)

def jsonLiteral (d : Dialect) (v : Json.Value) : String :=
  let text := String.ofList v.text
  match d with
  | .postgres => stringLiteral text ++ "::jsonb"
  | .mysql => "CAST(" ++ mysqlString text ++ " AS JSON)"
  | .sqlite => "json(" ++ stringLiteral text ++ ")"
  | .sqlserver => nationalString text

def commaSeparated (parts : List String) : String := ", ".intercalate parts

mutual

/-- The literal of a cell. Arrays are arrays in Postgres and JSON values elsewhere. -/
def literal (d : Dialect) : Cell → Except Error String
  | .null => .ok "NULL"
  | .boolean b => .ok (booleanLiteral d b)
  | .integer n => .ok (String.ofList (Text.decimalInt n.toInt))
  | .float x => floatLiteral d x
  | .decimal s => decimalLiteral d s
  | .text s => textLiteral d s
  | .date t => .ok (temporalLiteral d "DATE" "DATE" t.text)
  | .time t => .ok (temporalLiteral d "TIME" "TIME" t.text)
  | .timestamp t => .ok (temporalLiteral d "TIMESTAMP" "DATETIME2" (t.text ' '))
  | .instant t => .ok (instantLiteral d t)
  | .uuid u => .ok (uuidLiteral d u)
  | .bytes b => .ok (bytesLiteral d b)
  | .json v => .ok (jsonLiteral d v.value)
  | .array items =>
    match d with
    | .postgres =>
      if items.isEmpty then .ok "'\x7b\x7d'"
      else
        match literals d items with
        | .ok elements => .ok ("ARRAY[" ++ commaSeparated elements ++ "]")
        | .error e => .error e
    | _ => .ok (jsonLiteral d (.array (Cell.itemsView items)))

/-- The literals of cells in order; the first refusal counts. -/
def literals (d : Dialect) : List Cell → Except Error (List String)
  | [] => .ok []
  | cell :: rest =>
    match literal d cell with
    | .error e => .error e
    | .ok first =>
      match literals d rest with
      | .ok others => .ok (first :: others)
      | .error e => .error e

end

end DraftLedger.Sql
