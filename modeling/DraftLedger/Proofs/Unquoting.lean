import DraftLedger.Proofs.CellText
import DraftLedger.Proofs.Quoting
import DraftLedger.Proofs.Sample

/-!
# Quoted texts read back

A database reads a quoted text character by character up to the quote that closes it, and gives back
what stood between the quotes.  A quote that comes twice stands for one, and a backslash in a MySQL
string changes the meaning of the character after it.

* `Sql.Place.read?` : the text from a place inside quotes up to their end, with what comes next.
* `Sql.stringAt?`, `Sql.nameAt?` : the string or the name at the front of a text.
* `Sql.mysqlChar_replacements` : the escapes of MySQL as replacements one after another.
* `Sql.stringAt?_textLiteral`, `Sql.nameAt?_quoteName`, `Sql.jsonLiteral_parts` : what is written is
  read back, and the reader stops where it ends.
* `Sql.quoted_reads_back` : all of them, for every dialect.
-/

set_option autoImplicit false

namespace DraftLedger.Sql

/-! ## The reader of quoted texts -/

/-- What a backslash and the character after it stand for in a MySQL string.  Before the wildcards of
patterns the backslash stays, and before a character without a meaning of its own it goes. -/
def unescaped (c : Char) : List Char :=
  if c = '0' then ['\x00']
  else if c = 'b' then ['\x08']
  else if c = 't' then ['\t']
  else if c = 'n' then ['\n']
  else if c = 'r' then ['\r']
  else if c = 'Z' then ['\x1a']
  else if c = '%' ∨ c = '_' then ['\\', c]
  else [c]

/-- Puts characters in front of a text that was read. -/
def behind (cs : List Char) : Option (String × List Char) → Option (String × List Char)
  | some (s, rest) => some (String.ofList cs ++ s, rest)
  | none => none

namespace Place

/-- What a character adds to the text at a place inside quotes. -/
def gives (d : Dialect) (p : Place) (c : Char) : List Char :=
  match p with
  | .inside _ => if p.next d c = p then [c] else []
  | .escaped _ => unescaped c
  | _ => []

/-- Reads up to the end of the quotes. Gives the text and what comes next. -/
def read? (d : Dialect) : Place → List Char → Option (String × List Char)
  | .closed _, [] => some ("", [])
  | _, [] => none
  | .closed q, c :: cs => if c = q then behind [q] (read? d (.inside q) cs) else some ("", c :: cs)
  | p, c :: cs => behind (p.gives d c) (read? d (p.next d c) cs)

theorem read?_inside (d : Dialect) (q c : Char) (cs : List Char) :
    (inside q).read? d (c :: cs) =
      behind ((inside q).gives d c) (((inside q).next d c).read? d cs) := rfl

theorem read?_escaped (d : Dialect) (q c : Char) (cs : List Char) :
    (escaped q).read? d (c :: cs) = behind (unescaped c) ((inside q).read? d cs) := rfl

end Place

/-- The character that a name begins with. -/
def nameOpening : Dialect → Char
  | .postgres | .sqlite => '"'
  | .mysql => '\x60'
  | .sqlserver => '['

/-- The character that a name ends with. -/
def nameClosing : Dialect → Char
  | .postgres | .sqlite => '"'
  | .mysql => '\x60'
  | .sqlserver => ']'

/-- Reads the name at the front of a text. -/
def nameAt? (d : Dialect) : List Char → Option (String × List Char)
  | c :: cs => if c = nameOpening d then (Place.inside (nameClosing d)).read? d cs else none
  | [] => none

/-- Reads the string at the front of a text. A SQL Server string may be marked as one of national
characters. -/
def stringAt? (d : Dialect) : List Char → Option (String × List Char)
  | '\'' :: cs => (Place.inside '\'').read? d cs
  | 'N' :: '\'' :: cs => if d = .sqlserver then (Place.inside '\'').read? d cs else none
  | _ => none

section

variable {d : Dialect} {q : Char} {rest : List Char}

/-! ## Texts between quotes -/

theorem behind_behind (cs cs' : List Char) (read : Option (String × List Char)) :
    behind cs (behind cs' read) = behind (cs ++ cs') read := by
  cases read with
  | none => rfl
  | some found => simp [behind, String.append_assoc, String.ofList_append]

theorem Place.read?_closed (apart : rest.head? ≠ some q) :
    (Place.closed q).read? d rest = some ("", rest) := by
  cases rest with
  | nil => rfl
  | cons c cs =>
    have other : c ≠ q := fun same => apart (by rw [same]; rfl)
    rw [read?, if_neg other]

/-- What is written for single characters is read back if it is for each of them. -/
theorem Place.read?_flatMap {write : Char → List Char}
    (one : ∀ c after, (inside q).read? d (write c ++ after) = behind [c] ((inside q).read? d after))
    (cs after : List Char) :
    (inside q).read? d (cs.flatMap write ++ after) = behind cs ((inside q).read? d after) := by
  induction cs with
  | nil => cases read : (inside q).read? d after <;> simp [behind, read]
  | cons c cs ih => rw [List.flatMap_cons, List.append_assoc, one, ih, behind_behind]; rfl

theorem Place.read?_end (apart : rest.head? ≠ some q) :
    (inside q).read? d (q :: rest) = some ("", rest) := by
  have closes : (inside q).next d q = .closed q := by simp [next]
  rw [read?_inside, closes, read?_closed apart, gives, closes]
  rfl

theorem Place.read?_doubled (noEscape : ¬ (d = .mysql ∧ q = '\'')) (apart : rest.head? ≠ some q)
    (s : String) :
    (inside q).read? d (doubled q s.toList ++ q :: rest) = some (s, rest) := by
  have one (c : Char) (after : List Char) :
      (inside q).read? d ((if c = q then [q, q] else [c]) ++ after) =
        behind [c] ((inside q).read? d after) := by
    by_cases same : c = q
    · subst same
      simp [read?_inside, read?, next, gives, behind_behind]
    · have other : ¬ (d = .mysql ∧ q = '\'' ∧ c = '\\') := fun h => noEscape ⟨h.1, h.2.1⟩
      have stays : (inside q).next d c = .inside q := by rw [next, if_neg same, if_neg other]
      rw [if_neg same, List.singleton_append, read?_inside, gives, stays, if_pos rfl]
  rw [doubled, read?_flatMap one, read?_end apart]
  simp [behind]

theorem Place.read?_mysqlChar (apart : rest.head? ≠ some '\'') (s : String) :
    (inside '\'').read? .mysql (s.toList.flatMap mysqlChar ++ '\'' :: rest) = some (s, rest) := by
  have one (c : Char) (after : List Char) :
      (inside '\'').read? .mysql (mysqlChar c ++ after) =
        behind [c] ((inside '\'').read? .mysql after) := by
    unfold mysqlChar
    split
    next escape =>
      subst escape
      simp [read?_inside, read?_escaped, next, gives, behind_behind, unescaped]
    next noEscape =>
    split
    next quote =>
      subst quote
      simp [read?_inside, read?, next, gives, behind_behind]
    next noQuote =>
    split
    next nul =>
      subst nul
      simp [read?_inside, read?_escaped, next, gives, behind_behind, unescaped]
    · have stays : (inside '\'').next .mysql c = .inside '\'' := by simp [next, noEscape, noQuote]
      rw [List.singleton_append, read?_inside, gives, stays, if_pos rfl]
  rw [read?_flatMap one, read?_end apart]
  simp [behind]

/-! ## The escapes of MySQL -/

/-- Writes a backslash and a zero for every NUL character. -/
def nulEscaped (cs : List Char) : List Char :=
  cs.flatMap fun c => if c = '\x00' then ['\\', '0'] else [c]

/-- The escapes of single characters are those of three replacements in the whole text: backslashes
first, so that the one that a NUL character brings in stays single. -/
theorem mysqlChar_replacements (cs : List Char) :
    cs.flatMap mysqlChar = nulEscaped (doubled '\'' (doubled '\\' cs)) := by
  induction cs with
  | nil => rfl
  | cons c cs ih =>
    have one : mysqlChar c = nulEscaped (doubled '\'' (doubled '\\' [c])) := by
      unfold mysqlChar
      split
      next escape => subst escape; rfl
      next noEscape =>
      split
      next quote => subst quote; rfl
      next noQuote =>
      split
      next nul => subst nul; rfl
      next noNul => simp [doubled, nulEscaped, noEscape, noQuote, noNul]
    rw [List.flatMap_cons, one, ih]
    simp [doubled, nulEscaped]

/-! ## Strings and names -/

theorem stringAt?_stringLiteral (noEscape : d ≠ .mysql) (apart : rest.head? ≠ some '\'')
    (s : String) : stringAt? d ((stringLiteral s).toList ++ rest) = some (s, rest) := by
  have read := Place.read?_doubled (fun h => noEscape h.1) apart s
  simpa [stringLiteral, enclosed, stringAt?] using read

theorem stringAt?_mysqlString (apart : rest.head? ≠ some '\'') (s : String) :
    stringAt? .mysql ((mysqlString s).toList ++ rest) = some (s, rest) := by
  have read := Place.read?_mysqlChar apart s
  simpa [mysqlString, stringAt?] using read

theorem stringAt?_nationalString (apart : rest.head? ≠ some '\'') (s : String) :
    stringAt? .sqlserver ((nationalString s).toList ++ rest) = some (s, rest) := by
  have read := Place.read?_doubled (d := .sqlserver) (by decide) apart s
  simpa [nationalString, stringLiteral, enclosed, stringAt?] using read

/-- The string of a dialect. -/
def quoteString : Dialect → String → String
  | .postgres, s | .sqlite, s => stringLiteral s
  | .mysql, s => mysqlString s
  | .sqlserver, s => nationalString s

theorem stringAt?_quoteString (d : Dialect) (apart : rest.head? ≠ some '\'') (s : String) :
    stringAt? d ((quoteString d s).toList ++ rest) = some (s, rest) := by
  cases d with
  | postgres => exact stringAt?_stringLiteral (by decide) apart s
  | mysql => exact stringAt?_mysqlString apart s
  | sqlite => exact stringAt?_stringLiteral (by decide) apart s
  | sqlserver => exact stringAt?_nationalString apart s

/-- A text has a literal in every dialect, except one with a NUL character in Postgres. -/
theorem textLiteral_eq_ok {s literal : String} :
    textLiteral d s = .ok literal ↔
      ¬ (d = .postgres ∧ '\x00' ∈ s.toList) ∧ literal = quoteString d s := by
  cases d <;> simp [textLiteral, quoteString, refuse, eq_comm]
  split <;> simp_all

theorem stringAt?_textLiteral {s literal : String} (written : textLiteral d s = .ok literal)
    (apart : rest.head? ≠ some '\'') : stringAt? d (literal.toList ++ rest) = some (s, rest) := by
  rw [(textLiteral_eq_ok.1 written).2]
  exact stringAt?_quoteString d apart s

theorem nameAt?_quoteName (apart : rest.head? ≠ some (nameClosing d)) (s : String) :
    nameAt? d ((quoteName d s).toList ++ rest) = some (s, rest) := by
  have noEscape : ¬ (d = .mysql ∧ nameClosing d = '\'') := by cases d <;> decide
  have read := Place.read?_doubled noEscape apart s
  cases d <;> simpa [quoteName, enclosed, nameAt?, nameOpening, nameClosing] using read

/-! ## JSON values -/

/-- What stands around the string of a JSON value. -/
def jsonFrame : Dialect → String × String
  | .postgres => ("", "::jsonb")
  | .mysql => ("CAST(", " AS JSON)")
  | .sqlite => ("json(", ")")
  | .sqlserver => ("", "")

theorem jsonLiteral_parts (d : Dialect) (v : Json.Value) :
    jsonLiteral d v =
      (jsonFrame d).1 ++ quoteString d v.toJson.render ++ (jsonFrame d).2 := by
  cases d <;> simp [jsonLiteral, jsonFrame, quoteString, Json.Value.text, Json.render]

theorem toOrdered?_read?_render {v : Json.OrderedValue}
    (floats : ∀ x ∈ v.value.floats, x.ReadsBack) :
    (Json.read? v.value.toJson.render).bind Json.toOrdered? = some v := by
  rw [Json.read?_render_of_readable (v.value.toJson_readable floats)]
  exact Json.toOrdered?_toJson v floats

/-! ## All that is quoted -/

/-- In every dialect, started on the literal of a text or on a quoted name, the reader gives that text
or name and stops where the literal ends, if what follows does not go on with the closing quote.  The
literal of a JSON value has one string, from which the reader gives a JSON text with that value. -/
theorem quoted_reads_back (d : Dialect) :
    (∀ s written rest, literal d (.text s) = .ok written → rest.head? ≠ some '\'' →
        stringAt? d (written.toList ++ rest) = some (s, rest)) ∧
      (∀ name rest, rest.head? ≠ some (nameClosing d) →
        nameAt? d ((quoteName d name).toList ++ rest) = some (name, rest)) ∧
      ∀ v : Json.OrderedValue, (∀ x ∈ v.value.floats, x.ReadsBack) →
        ∃ quoted text, literal d (.json v) = .ok ((jsonFrame d).1 ++ quoted ++ (jsonFrame d).2) ∧
          (∀ rest, rest.head? ≠ some '\'' →
            stringAt? d (quoted.toList ++ rest) = some (text, rest)) ∧
          (Json.read? text).bind Json.toOrdered? = some v := by
  refine ⟨fun s written rest written' apart => ?_, fun name rest apart => nameAt?_quoteName apart name,
    fun v floats => ⟨quoteString d v.value.toJson.render, v.value.toJson.render, ?_,
      fun rest apart => stringAt?_quoteString d apart _, toOrdered?_read?_render floats⟩⟩
  · rw [literal] at written'
    exact stringAt?_textLiteral written' apart
  · rw [literal, jsonLiteral_parts]

end

end DraftLedger.Sql

namespace DraftLedger.Sample

open Sql

/-- Quotes and backslashes next to each other and at the end, and a NUL character before a digit. -/
def knotted : String := "'\\'\x000\\\\'"

/-- The string of the text in MySQL. -/
def knottedString : String := "'''\\\\''\\00\\\\\\\\'''"

/-- An object with quotes, a backslash and a fraction. -/
def annotated : Json.OrderedValue where
  value := .object
    [("a\"b'", .array [.number (.float ⟨0x3fe0000000000000⟩ rfl), .string "\\'\x00"])]
  ordered := ⟨List.pairwise_singleton _ _, ⟨trivial, trivial, trivial⟩, trivial⟩

theorem annotated_floats : ∀ x ∈ annotated.value.floats, x.ReadsBack := by
  intro x hx
  rw [List.mem_singleton.1 hx]
  exact fun finite => rfl

theorem quoted_reads_back_knotted :
    literal .mysql (.text knotted) = .ok knottedString ∧
      stringAt? .mysql (knottedString.toList ++ [',']) = some (knotted, [',']) ∧
      nameAt? .sqlserver ((quoteName .sqlserver "]a]]").toList ++ ['.']) = some ("]a]]", ['.']) ∧
      ∃ quoted text, literal .mysql (.json annotated) = .ok ("CAST(" ++ quoted ++ " AS JSON)") ∧
        stringAt? .mysql (quoted.toList ++ " AS JSON)".toList) = some (text, " AS JSON)".toList) ∧
        (Json.read? text).bind Json.toOrdered? = some annotated := by
  have written : literal .mysql (.text knotted) = .ok knottedString := rfl
  obtain ⟨texts, -, values⟩ := quoted_reads_back .mysql
  obtain ⟨-, names, -⟩ := quoted_reads_back .sqlserver
  obtain ⟨quoted, text, literal, reads, value⟩ := values annotated annotated_floats
  exact ⟨written, texts _ _ _ written (by decide), names _ _ (by decide), quoted, text, literal,
    reads _ (by decide), value⟩

end DraftLedger.Sample
