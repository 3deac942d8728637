import DraftLedger.Proofs.Sample
import DraftLedger.Proofs.Statements

/-!
# Scripts are cut into their own statements

A reader that knows only the quotes of a dialect cuts the text of a script at every semicolon
outside of quotes, and gives up at a comment outside of quotes.  It finds the statements of the
script, whatever the names and cells are that the statements are made of.

* `Sql.Place.pieces?`, `Sql.statementsIn?` : the reader that cuts.
* `Script.joined_inj` : scripts of the same text have the same statements.
* `Script.compile_cut` : a compiled script is cut into its own statements, one for each change.
-/

set_option autoImplicit false

namespace DraftLedger

/-! ## The reader that cuts -/

namespace Sql

/-- The pieces of a text between the semicolons outside of quotes, read from a place on.  None, if a
comment begins outside of quotes or if the text ends inside of quotes. -/
def Place.pieces? (d : Dialect) : Place → List Char → Option (List (List Char))
  | p, [] => if p.isOutside then some [[]] else none
  | p, c :: cs =>
    if p.opensComment c then none
    else if p.isOutside && c = ';' then (Place.outside.pieces? d cs).map ([] :: ·)
    else ((p.next d c).pieces? d cs).map (List.modifyHead (c :: ·))

/-- A piece without the line break that it begins with, if it does. -/
def ownLine : List Char → List Char
  | '\n' :: cs => cs
  | cs => cs

/-- The statements of a text: what stands before each semicolon outside of quotes, on its own line.
None, if anything follows the last semicolon, if a comment begins outside of quotes or if quotes are
left open. -/
def statementsIn? (d : Dialect) (text : String) : Option (List String) :=
  match Place.outside.pieces? d text.toList with
  | none => none
  | some pieces =>
    if pieces.getLast? = some [] then
      some (pieces.dropLast.map fun piece => String.ofList (ownLine piece))
    else none

section Reading

variable {d : Dialect} {p q : Place} {s : String} {cs rest : List Char}

/-- A text without semicolons and comments outside of quotes stands at the front of the first
piece. -/
theorem Place.pieces?_append (h : p.through d cs = some q) :
    p.pieces? d (cs ++ rest) = (q.pieces? d rest).map (List.modifyHead (cs ++ ·)) := by
  induction cs generalizing p with
  | nil =>
    cases h
    have same : List.modifyHead (fun piece : List Char => [] ++ piece) = id := by
      funext pieces
      cases pieces <;> rfl
    rw [List.nil_append, same, Option.map_id, id_eq]
  | cons c cs ih =>
    rw [Place.through] at h
    split at h
    · cases h
    · next goesOn =>
      have noComment : p.opensComment c = false := by
        cases comment : p.opensComment c with
        | false => rfl
        | true => simp [Place.stops, comment] at goesOn
      have noCut : (p.isOutside && decide (c = ';')) = false := by
        cases cut : p.isOutside && decide (c = ';') with
        | false => rfl
        | true => simp [Place.stops, cut] at goesOn
      have first : (fun piece => c :: cs ++ piece) = (c :: ·) ∘ (cs ++ ·) := rfl
      rw [List.cons_append, Place.pieces?, noComment, noCut, if_neg Bool.false_ne_true,
        if_neg Bool.false_ne_true, ih h, Option.map_map, first]
      congr 1
      funext pieces
      cases pieces <;> rfl

theorem Place.Ends.pieces?_nil (h : p.Ends d) : p.pieces? d [] = some [[]] := by
  rw [Place.pieces?, if_pos h.isOutside]

theorem Place.Ends.pieces?_semicolon (h : p.Ends d) :
    p.pieces? d (';' :: rest) = (Place.outside.pieces? d rest).map ([] :: ·) := by
  have noComment : p.opensComment ';' = false := by simp [Place.opensComment]
  have cut : (p.isOutside && decide (';' = ';')) = true := by simp [h.isOutside]
  rw [Place.pieces?, noComment, if_neg Bool.false_ne_true, if_pos cut]

theorem Sealed.pieces? (h : Sealed d s) : Place.outside.pieces? d s.toList = some [s.toList] := by
  obtain ⟨p, through, ends⟩ := h
  have read : Place.outside.pieces? d (s.toList ++ []) = _ := Place.pieces?_append through
  rw [ends.pieces?_nil] at read
  simpa using read

theorem Sealed.pieces?_semicolon (h : Sealed d s) :
    Place.outside.pieces? d (s.toList ++ ';' :: rest) =
      (Place.outside.pieces? d rest).map (s.toList :: ·) := by
  obtain ⟨p, through, ends⟩ := h
  rw [Place.pieces?_append through, ends.pieces?_semicolon, Option.map_map]
  congr 1
  funext pieces
  simp

theorem ownLine_of_opensWithVerb (h : OpensWithVerb s) : ownLine s.toList = s.toList := by
  obtain ⟨verb, mem, rest, rfl⟩ := h
  rcases List.mem_cons.1 mem with rfl | mem
  · simp [ownLine]
  rcases List.mem_cons.1 mem with rfl | mem
  · simp [ownLine]
  · obtain rfl := List.mem_singleton.1 mem
    simp [ownLine]

end Reading

end Sql

/-! ## Scripts -/

namespace Script

open Sql

variable {d : Dialect}

theorem joined_cons (s : String) (rest : List String) :
    (joined (s :: rest)).toList =
      s.toList ++ ';' :: (if rest = [] then [] else '\n' :: (joined rest).toList) := by
  cases rest with
  | nil => simp [joined]
  | cons t rest => simp [joined]

/-- The pieces of a text of sealed statements: each statement, all but the first one after a line
break, and nothing after the last semicolon. -/
theorem pieces?_joined {s : String} {rest : List String} (hs : Sealed d s)
    (h : ∀ t ∈ rest, Sealed d t) :
    Place.outside.pieces? d (joined (s :: rest)).toList =
      some (s.toList :: (rest.map ('\n' :: ·.toList) ++ [[]])) := by
  induction rest generalizing s with
  | nil => rw [joined_cons, hs.pieces?_semicolon]; rfl
  | cons t rest ih =>
    have others := ih (h t List.mem_cons_self) fun u hu => h u (List.mem_cons_of_mem t hu)
    have lineBreak : Place.outside.through d ['\n'] = some .outside := by cases d <;> rfl
    have broken : Place.outside.pieces? d (['\n'] ++ (joined (t :: rest)).toList) = _ :=
      Place.pieces?_append lineBreak
    rw [others] at broken
    rw [joined_cons, if_neg (List.cons_ne_nil t rest), hs.pieces?_semicolon,
      ← List.singleton_append, broken]
    rfl

theorem statementsIn?_joined {statements : List String}
    (h : ∀ s ∈ statements, Sealed d s ∧ OpensWithVerb s) :
    statementsIn? d (joined statements) = some statements := by
  cases statements with
  | nil => rfl
  | cons s rest =>
    have first := h s List.mem_cons_self
    have others : ∀ t ∈ rest, Sealed d t := fun t ht => (h t (List.mem_cons_of_mem s ht)).1
    have last : (s.toList :: (rest.map ('\n' :: ·.toList) ++ [[]])).getLast? = some [] := by
      rw [← List.cons_append, List.getLast?_concat]
    have before : (s.toList :: (rest.map ('\n' :: ·.toList) ++ [[]])).dropLast =
        s.toList :: rest.map ('\n' :: ·.toList) := by
      rw [← List.cons_append, List.dropLast_concat]
    rw [statementsIn?, pieces?_joined first.1 others]
    simp only [last, before, if_true, List.map_cons, List.map_map,
      ownLine_of_opensWithVerb first.2, String.ofList_toList]
    have each : ((fun piece => String.ofList (ownLine piece)) ∘ fun t : String => '\n' :: t.toList) =
        id := by
      funext t
      exact String.ofList_toList
    rw [each, List.map_id]

/-- Scripts of statements have the same text only if they have the same statements. -/
theorem joined_inj {a b : List String} (ha : ∀ s ∈ a, Sealed d s ∧ OpensWithVerb s)
    (hb : ∀ s ∈ b, Sealed d s ∧ OpensWithVerb s) (eq : joined a = joined b) : a = b := by
  have read := statementsIn?_joined ha
  rw [eq, statementsIn?_joined hb] at read
  exact (Option.some.inj read).symm

variable {threshold : Nat} {keyColumns : KeyColumns} {scope : Option Table} {changes : List Change}
  {script : Script}

/-- A compiled script is cut into its own statements: there is one for each change that it covers,
and a reader of one statement alone comes out of it outside of quotes, without a semicolon or a
comment on the way. -/
theorem compile_cut (h : compile threshold keyColumns d scope changes = .ok script) :
    statementsIn? d script.sql = some script.statements ∧
      (∀ s ∈ script.statements, Place.outside.pieces? d s.toList = some [s.toList]) ∧
      List.Forall₂ (fun c s => statement d keyColumns c = .ok s) (covered scope changes)
        script.statements := by
  have compiles := compiles_of_compile h
  have each := compiles.statements_sealed
  refine ⟨?_, fun s hs => (each s hs).1.pieces?, forall₂_of_forEach compiles.statements⟩
  rw [compiles.sql]
  exact statementsIn?_joined each

end Script

/-! ## Names and cells full of quotes -/

namespace Sample

/-- A table whose names close quotes, end a statement and begin a comment. -/
def quoting : Table := ⟨"shop\x60; --", some "public\"; --", "it\x60e\"m]s'; /*"⟩

/-- An insertion into that table of a cell that does the same. -/
def breakout : Change :=
  { id := id 1
    kind := .insert
    table := quoting
    primaryKey := none
    oldValues := none
    newValues := some (Dict.ofList [("a\x60; --", .text "\\'); DELETE FROM items; --\n"),
      ("b", .integer (-1))])
    timestamp := ⟨1, 0⟩
    updatedAt := ⟨1, 0⟩ }

/-- A deletion from the table by a name that does the same. -/
def cleanup : Change :=
  { breakout with id := id 2, kind := .delete, oldValues := some (named "'; --"), newValues := none }

/-- The script in the dialect in which a backslash is an escape character. -/
theorem compile_cut_breakout :
    ∃ script, Script.compile 5 Dict.empty .mysql none [breakout, cleanup] = .ok script ∧
      script.statements =
        ["INSERT INTO \x60shop\x60\x60; --\x60.\x60it\x60\x60e\"m]s'; /*\x60 " ++
            "(\x60a\x60\x60; --\x60, \x60b\x60) VALUES ('\\\\''); DELETE FROM items; --\n', -1)",
          "DELETE FROM \x60shop\x60\x60; --\x60.\x60it\x60\x60e\"m]s'; /*\x60 " ++
            "WHERE \x60name\x60 = '''; --'"] ∧
      Sql.statementsIn? .mysql script.sql = some script.statements := by
  have compiled : ∃ script,
      Script.compile 5 Dict.empty .mysql none [breakout, cleanup] = .ok script := ⟨_, rfl⟩
  obtain ⟨script, h⟩ := compiled
  have statements := (Script.compiles_of_compile h).statements
  refine ⟨script, h, ?_, (Script.compile_cut h).1⟩
  exact (Except.ok.inj statements).symm

end Sample

end DraftLedger
