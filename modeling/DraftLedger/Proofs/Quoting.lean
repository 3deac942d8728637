import DraftLedger.Sql.Literal

/-!
# Texts with their quotes

A reader of SQL that knows only the quotes and comments of a dialect is led through a text, and may
come out of it outside of quotes.

* `Sql.Place`, `Sql.Place.through` : the reader.
* `Sql.Sealed`, `Sql.Settled` : texts that leave the reader outside of quotes, with no semicolon and
  no comment there.
* `Sql.sealed_quoteName`, `Sql.sealed_stringLiteral`, `Sql.sealed_mysqlString` : quoted texts are
  sealed.
* `Sql.Tame`, `Sql.Calm` : texts without characters that mean anything to the reader, and such texts
  that have no comment when they stand outside of quotes.
-/

set_option autoImplicit false

namespace DraftLedger.Sql

/-! ## The reader -/

/-- Where a reader of SQL stands. -/
inductive Place where
  | outside
  /-- After a hyphen outside of quotes. -/
  | hyphen
  /-- After a slash outside of quotes. -/
  | slash
  | inside (closing : Char)
  /-- After a backslash inside quotes. -/
  | escaped (closing : Char)
  /-- After a character that closes the quotes unless it comes twice. -/
  | closed (closing : Char)
deriving DecidableEq

/-- The character that closes the quotes that a character opens, if it opens any. -/
def closing? (d : Dialect) (c : Char) : Option Char :=
  if c = '\'' then some '\''
  else
    match d with
    | .postgres | .sqlite => if c = '"' then some '"' else none
    | .mysql => if c = '\x60' then some '\x60' else none
    | .sqlserver => if c = '[' then some ']' else none

namespace Place

/-- The place after a character that does not belong to quotes before it. -/
def opened (d : Dialect) (c : Char) : Place :=
  match closing? d c with
  | some q => .inside q
  | none => if c = '-' then .hyphen else if c = '/' then .slash else .outside

/-- The place after one more character. -/
def next (d : Dialect) (p : Place) (c : Char) : Place :=
  match p with
  | .outside | .hyphen | .slash => opened d c
  | .inside q =>
    if c = q then .closed q
    else if d = .mysql ∧ q = '\'' ∧ c = '\\' then .escaped q
    else .inside q
  | .escaped q => .inside q
  | .closed q => if c = q then .inside q else opened d c

/-- Whether the place is outside of quotes. -/
def isOutside : Place → Bool
  | .outside | .hyphen | .slash | .closed _ => true
  | .inside _ | .escaped _ => false

/-- Whether a comment begins with the character, as the second one of its mark. -/
def opensComment (p : Place) (c : Char) : Bool :=
  p = .hyphen && c = '-' || p = .slash && c = '*'

/-- Whether a statement cannot go on with the character. -/
def stops (p : Place) (c : Char) : Bool := p.opensComment c || (p.isOutside && c = ';')

/-- The place after a text, unless there is a semicolon or a comment outside of quotes. -/
def through (d : Dialect) : Place → List Char → Option Place
  | p, [] => some p
  | p, c :: cs => if p.stops c then none else (p.next d c).through d cs

theorem through_append (d : Dialect) (p : Place) (a b : List Char) :
    p.through d (a ++ b) = (p.through d a).bind fun q => q.through d b := by
  induction a generalizing p with
  | nil => rfl
  | cons c cs ih =>
    simp only [List.cons_append, through]
    split
    · rfl
    · exact ih _

end Place

/-! ## Sealed texts -/

/-- Whether a character means something to the reader outside of quotes. -/
def isMark (d : Dialect) (c : Char) : Bool :=
  (closing? d c).isSome || (d = .sqlserver && c = ']') || c = ';'

/-- The place is outside of quotes for every text that does not go on with a mark. -/
def Place.Ends (d : Dialect) (p : Place) : Prop :=
  p = .outside ∨ ∃ q, p = .closed q ∧ isMark d q = true

/-- The text leaves the reader outside of quotes, and has no semicolon and no comment there. -/
def Sealed (d : Dialect) (s : String) : Prop :=
  ∃ p, Place.outside.through d s.toList = some p ∧ p.Ends d

/-- The text leaves the reader outside of quotes, whatever comes next. -/
def Settled (d : Dialect) (s : String) : Prop :=
  Place.outside.through d s.toList = some .outside

/-- The text begins with a character that is no mark. -/
def Soft (d : Dialect) (s : String) : Prop :=
  ∃ c cs, s.toList = c :: cs ∧ isMark d c = false

section Texts

variable {d : Dialect} {s t : String} {p : Place} {c : Char} {cs : List Char}

theorem closing?_eq_none (h : isMark d c = false) : closing? d c = none := by
  cases found : closing? d c with
  | none => rfl
  | some q => simp [isMark, found] at h

theorem ne_semicolon (h : isMark d c = false) : c ≠ ';' := by
  rintro rfl
  simp [isMark] at h

theorem Place.through_cons (h : p.stops c = false) :
    p.through d (c :: cs) = (p.next d c).through d cs := by
  rw [through, h, if_neg Bool.false_ne_true]

theorem Place.Ends.through_cons (h : p.Ends d) (plain : isMark d c = false) :
    p.through d (c :: cs) = Place.outside.through d (c :: cs) := by
  rcases h with rfl | ⟨q, rfl, mark⟩
  · rfl
  · have other : c ≠ q := by
      rintro rfl
      rw [plain] at mark
      cases mark
    simp [through, next, stops, opensComment, isOutside, other]

theorem Place.Ends.isOutside (h : p.Ends d) : p.isOutside = true := by
  rcases h with rfl | ⟨q, rfl, -⟩ <;> rfl

theorem Settled.sealed (h : Settled d s) : Sealed d s := ⟨.outside, h, .inl rfl⟩

theorem Settled.append_sealed (hs : Settled d s) (ht : Sealed d t) : Sealed d (s ++ t) := by
  obtain ⟨p, through, ends⟩ := ht
  refine ⟨p, ?_, ends⟩
  rw [String.toList_append, Place.through_append, hs]
  exact through

/-- What comes after a sealed text is read as if it stood alone, if it does not begin with a mark. -/
theorem Sealed.through_append (hs : Sealed d s) (soft : Soft d t) :
    Place.outside.through d (s ++ t).toList = Place.outside.through d t.toList := by
  obtain ⟨p, through, ends⟩ := hs
  obtain ⟨c, cs, eq, plain⟩ := soft
  rw [String.toList_append, Place.through_append, through, Option.bind_some, eq,
    ends.through_cons plain]

theorem Sealed.append (hs : Sealed d s) (ht : Sealed d t) (soft : Soft d t) : Sealed d (s ++ t) := by
  unfold Sealed
  rw [hs.through_append soft]
  exact ht

theorem Sealed.append_settled (hs : Sealed d s) (ht : Settled d t) (soft : Soft d t) :
    Settled d (s ++ t) := by
  rw [Settled, hs.through_append soft]
  exact ht

theorem Soft.append (h : Soft d s) : Soft d (s ++ t) := by
  obtain ⟨c, cs, eq, plain⟩ := h
  exact ⟨c, cs ++ t.toList, by simp [eq], plain⟩

/-! ## Quoted texts -/

theorem sealed_of_inside {opening q : Char} (opens : closing? d opening = some q)
    (mark : isMark d q = true)
    (inside : (Place.inside q).through d cs = some (.inside q)) :
    Sealed d (String.ofList (opening :: cs ++ [q])) := by
  refine ⟨.closed q, ?_, .inr ⟨q, rfl, mark⟩⟩
  have goesOn : Place.outside.stops opening = false := by
    have noSemicolon : opening ≠ ';' := by
      rintro rfl
      cases d <;> simp [closing?] at opens
    simp [Place.stops, Place.opensComment, noSemicolon]
  have first : Place.outside.next d opening = .inside q := by
    simp [Place.next, Place.opened, opens]
  have last : (Place.inside q).through d [q] = some (.closed q) := by
    simp [Place.through, Place.next, Place.stops, Place.opensComment, Place.isOutside]
  rw [String.toList_ofList, List.cons_append, Place.through_cons goesOn, first,
    Place.through_append, inside]
  exact last

theorem through_doubled {q : Char} (noEscape : ¬ (d = .mysql ∧ q = '\'')) (noSemicolon : q ≠ ';')
    (cs : List Char) : (Place.inside q).through d (doubled q cs) = some (.inside q) := by
  induction cs with
  | nil => rfl
  | cons c cs ih =>
    unfold doubled at ih ⊢
    rw [List.flatMap_cons, Place.through_append]
    by_cases same : c = q
    · -- The second one of the two takes back that the first one closes the quotes.
      subst same
      simp [Place.through, Place.next, Place.stops, Place.opensComment, Place.isOutside,
        noSemicolon, ih]
    · have other : ¬ (d = .mysql ∧ q = '\'' ∧ c = '\\') := fun h => noEscape ⟨h.1, h.2.1⟩
      simp [Place.through, Place.next, Place.stops, Place.opensComment, Place.isOutside, same,
        other, ih]

theorem through_mysqlChar (cs : List Char) :
    (Place.inside '\'').through .mysql (cs.flatMap mysqlChar) = some (.inside '\'') := by
  induction cs with
  | nil => rfl
  | cons c cs ih =>
    rw [List.flatMap_cons, Place.through_append]
    have one : (Place.inside '\'').through .mysql (mysqlChar c) = some (.inside '\'') := by
      unfold mysqlChar
      split
      · decide
      next noEscape =>
      split
      · decide
      next noQuote =>
      split
      · decide
      · simp [Place.through, Place.next, Place.stops, Place.opensComment, Place.isOutside,
          noEscape, noQuote]
    rw [one]
    exact ih

theorem sealed_quoteName (d : Dialect) (s : String) : Sealed d (quoteName d s) := by
  cases d with
  | postgres => exact sealed_of_inside rfl rfl (through_doubled (by decide) (by decide) _)
  | mysql => exact sealed_of_inside rfl rfl (through_doubled (by decide) (by decide) _)
  | sqlite => exact sealed_of_inside rfl rfl (through_doubled (by decide) (by decide) _)
  | sqlserver => exact sealed_of_inside rfl rfl (through_doubled (by decide) (by decide) _)

theorem closing?_quote (d : Dialect) : closing? d '\'' = some '\'' := by cases d <;> rfl

theorem isMark_quote (d : Dialect) : isMark d '\'' = true := by cases d <;> rfl

theorem sealed_stringLiteral (noEscape : d ≠ .mysql) (s : String) : Sealed d (stringLiteral s) :=
  sealed_of_inside (closing?_quote d) (isMark_quote d)
    (through_doubled (fun h => noEscape h.1) (by decide) _)

theorem sealed_mysqlString (s : String) : Sealed .mysql (mysqlString s) :=
  sealed_of_inside rfl rfl (through_mysqlChar _)

/-! ## Tame texts -/

/-- Whether a character means nothing to the reader, in quotes or outside of them. -/
def isTame (c : Char) : Bool :=
  c.isAlphanum || [' ', '.', ',', ':', '+', '-', '(', ')', '='].contains c

theorem isMark_of_isTame (h : isTame c = true) : isMark d c = false := by
  cases mark : isMark d c with
  | false => rfl
  | true =>
    have one : c = '\'' ∨ c = '"' ∨ c = '\x60' ∨ c = '[' ∨ c = ']' ∨ c = ';' := by
      cases d <;> simp [isMark, closing?] at mark <;> grind
    rcases one with rfl | rfl | rfl | rfl | rfl | rfl <;> revert h <;> decide

/-- The text has only characters that mean nothing to the reader. -/
def Tame (cs : List Char) : Prop := ∀ c ∈ cs, isTame c = true

@[simp] theorem tame_nil : Tame [] := fun _ h => absurd h List.not_mem_nil

@[simp] theorem tame_cons : Tame (c :: cs) ↔ isTame c = true ∧ Tame cs := List.forall_mem_cons

@[simp] theorem tame_append {cs' : List Char} : Tame (cs ++ cs') ↔ Tame cs ∧ Tame cs' :=
  List.forall_mem_append

theorem Tame.subset {cs' : List Char} (h : Tame cs) (sub : cs' ⊆ cs) : Tame cs' :=
  fun c hc => h c (sub hc)

theorem Tame.soft (h : Tame s.toList) (nonempty : s.toList ≠ []) : Soft d s := by
  cases eq : s.toList with
  | nil => exact absurd eq nonempty
  | cons c cs => exact ⟨c, cs, eq, isMark_of_isTame (h c (eq ▸ List.mem_cons_self))⟩

instance (cs : List Char) : Decidable (Tame cs) :=
  decidable_of_iff (cs.all isTame = true) List.all_eq_true

/-- Whether every hyphen of a text stands before a character other than a hyphen. -/
def hyphensApart : List Char → Bool
  | [] => true
  | [c] => c != '-'
  | c :: c' :: cs => !(c == '-' && c' == '-') && hyphensApart (c' :: cs)

theorem hyphensApart_append {cs' : List Char} (h : hyphensApart cs = true)
    (h' : hyphensApart cs' = true) : hyphensApart (cs ++ cs') = true := by
  fun_induction hyphensApart cs with
  | case1 => exact h'
  | case2 c =>
    cases cs' with
    | nil => exact h
    | cons c' rest =>
      have noHyphen : c ≠ '-' := by simpa using h
      simp [hyphensApart, noHyphen, h']
  | case3 c c' rest ih =>
    obtain ⟨first, others⟩ := Bool.and_eq_true_iff.1 h
    exact Bool.and_eq_true_iff.2 ⟨first, ih others⟩

theorem hyphensApart_of_forall (h : ∀ c ∈ cs, c ≠ '-') : hyphensApart cs = true := by
  fun_induction hyphensApart cs with
  | case1 => rfl
  | case2 c => simpa using h
  | case3 c c' rest ih =>
    have first : c ≠ '-' := h c List.mem_cons_self
    simp [first, ih fun c'' hc => h c'' (List.mem_cons_of_mem c hc)]

/-- The text means nothing to the reader, and has no comment where it stands outside of quotes. -/
structure Calm (cs : List Char) : Prop where
  tame : Tame cs
  hyphens : hyphensApart cs = true

instance (cs : List Char) : Decidable (Calm cs) :=
  decidable_of_iff (Tame cs ∧ hyphensApart cs = true) ⟨fun h => ⟨h.1, h.2⟩, fun h => ⟨h.1, h.2⟩⟩

theorem calm_nil : Calm [] := ⟨tame_nil, rfl⟩

theorem Calm.append {cs' : List Char} (h : Calm cs) (h' : Calm cs') : Calm (cs ++ cs') :=
  ⟨tame_append.2 ⟨h.tame, h'.tame⟩, hyphensApart_append h.hyphens h'.hyphens⟩

theorem ne_slash (h : isTame c = true) : c ≠ '/' := by
  rintro rfl
  revert h
  decide

theorem Place.next_of_isTame (h : isTame c = true) (noHyphen : c ≠ '-') :
    Place.outside.next d c = .outside := by
  simp [Place.next, Place.opened, closing?_eq_none (isMark_of_isTame h), noHyphen, ne_slash h]

theorem Place.outside_goesOn (h : isTame c = true) : Place.outside.stops c = false := by
  simp [Place.stops, Place.opensComment, ne_semicolon (isMark_of_isTame (d := .postgres) h)]

/-- After a hyphen, what does not begin with another one is read as if it stood alone. -/
theorem Place.hyphen_through (noHyphen : c ≠ '-') :
    Place.hyphen.through d (c :: cs) = Place.outside.through d (c :: cs) := by
  simp [Place.through, Place.next, Place.stops, Place.opensComment, Place.isOutside, noHyphen]

theorem Tame.through (tame : Tame cs) (hyphens : hyphensApart cs = true) :
    Place.outside.through d cs = some .outside := by
  fun_induction hyphensApart cs with
  | case1 => rfl
  | case2 c =>
    have noHyphen : c ≠ '-' := by simpa using hyphens
    have isTame := (tame_cons.1 tame).1
    rw [Place.through_cons (Place.outside_goesOn isTame), Place.next_of_isTame isTame noHyphen]
    rfl
  | case3 c c' rest ih =>
    obtain ⟨isTame, others⟩ := tame_cons.1 tame
    obtain ⟨first, apart⟩ := Bool.and_eq_true_iff.1 hyphens
    rw [Place.through_cons (Place.outside_goesOn isTame)]
    by_cases isHyphen : c = '-'
    · -- A hyphen moves the reader, but only another one would begin a comment there.
      subst isHyphen
      have noHyphen : c' ≠ '-' := by simpa using first
      have after : Place.outside.next d '-' = .hyphen := by cases d <;> rfl
      rw [after, Place.hyphen_through noHyphen]
      exact ih others apart
    · rw [Place.next_of_isTame isTame isHyphen]
      exact ih others apart

theorem Calm.settled (h : Calm s.toList) : Settled d s := h.tame.through h.hyphens

/-- The text has no characters that mean something in a string of the dialect. -/
def Inert (d : Dialect) (cs : List Char) : Prop :=
  ∀ c ∈ cs, c ≠ '\'' ∧ (d = .mysql → c ≠ '\\')

theorem Tame.inert (h : Tame cs) : Inert d cs := by
  intro c hc
  have tame := h c hc
  constructor
  · rintro rfl
    revert tame
    decide
  · rintro - rfl
    revert tame
    decide

theorem Inert.through (h : Inert d cs) :
    (Place.inside '\'').through d cs = some (.inside '\'') := by
  induction cs with
  | nil => rfl
  | cons c cs ih =>
    obtain ⟨noQuote, noEscape⟩ := h c List.mem_cons_self
    have other : ¬ (d = .mysql ∧ '\'' = '\'' ∧ c = '\\') := fun h => noEscape h.1 h.2.2
    rw [Place.through_cons rfl, Place.next, if_neg noQuote, if_neg other]
    exact ih fun c' hc' => h c' (List.mem_cons_of_mem c hc')

theorem sealed_of_parts {f i b : List Char} (eq : s.toList = f ++ ('\'' :: i ++ ['\'']) ++ b)
    (front : Calm f) (inner : Inert d i) (back : Calm b) : Sealed d s := by
  have quoted : Sealed d (String.ofList ('\'' :: i ++ ['\''])) :=
    sealed_of_inside (closing?_quote d) (isMark_quote d) inner.through
  have start : Settled d (String.ofList f) := Calm.settled (by simpa using front)
  have first := start.append_sealed quoted
  have parts : s = String.ofList f ++ String.ofList ('\'' :: i ++ ['\'']) ++
      String.ofList b := by
    apply String.toList_injective
    simp [eq]
  rw [parts]
  cases b with
  | nil => simpa using first
  | cons c cs =>
    have rest : Calm (String.ofList (c :: cs)).toList := by simpa using back
    exact (first.append_settled rest.settled (rest.tame.soft (by simp))).sealed

theorem sealed_intercalate {separator : String} (calm : Calm separator.toList)
    (nonempty : separator.toList ≠ []) {parts : List String} (h : ∀ s ∈ parts, Sealed d s) :
    Sealed d (separator.intercalate parts) := by
  induction parts with
  | nil => exact ⟨.outside, rfl, .inl rfl⟩
  | cons s rest ih =>
    have first := h s List.mem_cons_self
    have others := ih fun t ht => h t (List.mem_cons_of_mem s ht)
    by_cases last : rest = []
    · rw [last, String.intercalate_singleton]
      exact first
    · rw [String.intercalate_cons_of_ne_nil last]
      exact (first.append_settled calm.settled (calm.tame.soft nonempty)).append_sealed others

theorem sealed_commaSeparated {parts : List String} (h : ∀ s ∈ parts, Sealed d s) :
    Sealed d (commaSeparated parts) := sealed_intercalate (by decide) (by decide) h

end Texts

end DraftLedger.Sql
