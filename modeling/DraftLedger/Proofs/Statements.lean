import DraftLedger.Proofs.Decimals
import DraftLedger.Proofs.Documents
import DraftLedger.Proofs.Quoting
import DraftLedger.Script

/-!
# Statements with their quotes

A statement has no semicolon and no comment outside of quotes, and ends outside of quotes.

* `Sql.literal_sealed`, `Sql.statement_sealed` : literals and statements are sealed.
* `Sql.OpensWithVerb` : how a statement begins.
* `Script.Compiles` : what a compiled script is.
-/

set_option autoImplicit false

namespace DraftLedger.Sql

/-! ## Tame parts of literals -/

theorem isTame_of_isDigit {c : Char} (h : c.isDigit = true) : isTame c = true := by
  simp [isTame, Char.isAlphanum, h]

@[simp] theorem tame_decimal (n : Nat) : Tame (Text.decimal n) := fun _ h =>
  isTame_of_isDigit (Text.isDigit_of_mem_decimal h)

@[simp] theorem tame_padded (width n : Nat) : Tame (Text.padded width n) := by
  refine tame_append.2 ⟨fun c h => ?_, tame_decimal n⟩
  rw [List.eq_of_mem_replicate h]
  decide

theorem tame_digits {cs : List Char} (h : ∀ c ∈ cs, c.isDigit = true) : Tame cs :=
  fun c hc => isTame_of_isDigit (h c hc)

theorem ne_hyphen_of_isDigit {c : Char} (h : c.isDigit = true) : c ≠ '-' := by
  rintro rfl
  revert h
  decide

theorem calm_digits {cs : List Char} (h : ∀ c ∈ cs, c.isDigit = true) : Calm cs :=
  ⟨tame_digits h, hyphensApart_of_forall fun c hc => ne_hyphen_of_isDigit (h c hc)⟩

theorem Calm.cons {c : Char} {cs : List Char} (tame : isTame c = true) (noHyphen : c ≠ '-')
    (h : Calm cs) : Calm (c :: cs) := by
  have first : Calm [c] := ⟨by simpa using tame, by simpa [hyphensApart] using noHyphen⟩
  exact first.append h

theorem Calm.hyphen {cs : List Char} (h : Calm cs) (starts : ∃ c rest, cs = c :: rest ∧ c ≠ '-') :
    Calm ('-' :: cs) := by
  obtain ⟨c, rest, rfl, noHyphen⟩ := starts
  exact ⟨tame_cons.2 ⟨by decide, h.tame⟩, by simp [hyphensApart, noHyphen, h.hyphens]⟩

theorem Calm.hyphen_digits {cs : List Char} (h : ∀ c ∈ cs, c.isDigit = true) (nonempty : cs ≠ []) :
    Calm ('-' :: cs) := by
  obtain ⟨c, rest, rfl⟩ := List.exists_cons_of_ne_nil nonempty
  exact (calm_digits h).hyphen ⟨c, rest, rfl, ne_hyphen_of_isDigit (h c List.mem_cons_self)⟩

theorem calm_decimalInt (n : Int) : Calm (Text.decimalInt n) := by
  have digits (m : Nat) : ∀ c ∈ Text.decimal m, c.isDigit = true :=
    fun _ h => Text.isDigit_of_mem_decimal h
  unfold Text.decimalInt
  split
  · exact Calm.hyphen_digits (digits _) (Text.decimal_ne_nil _)
  · exact calm_digits (digits _)

theorem hexBytes_forall {digit : Nat → Char} {p : Char → Prop} (h : ∀ n < 16, p (digit n))
    (bytes : List UInt8) : ∀ c ∈ Text.hexBytes digit bytes, p c := by
  intro c hc
  obtain ⟨b, -, hb⟩ := List.mem_flatMap.1 hc
  have bound := b.toNat_lt
  simp only [List.mem_cons, List.not_mem_nil, or_false] at hb
  rcases hb with rfl | rfl
  · exact h _ (by omega)
  · exact h _ (by omega)

theorem isTame_hexDigit : ∀ n < 16, isTame (Text.hexDigit n) = true := by decide

theorem isTame_hexDigitUpper : ∀ n < 16, isTame (Text.hexDigitUpper n) = true := by decide

theorem hexDigitUpper_ne_hyphen : ∀ n < 16, Text.hexDigitUpper n ≠ '-' := by decide

theorem tame_uuidText (u : Uuid) : Tame u.text := by
  have digits : Tame u.digits := hexBytes_forall isTame_hexDigit u.bytes
  have front (n : Nat) : Tame (u.digits.take n) := digits.subset (List.take_subset n _)
  have back (n : Nat) : Tame (u.digits.drop n) := digits.subset (List.drop_subset n _)
  have middle (n m : Nat) : Tame ((u.digits.drop n).take m) :=
    (back n).subset (List.take_subset m _)
  have hyphen : isTame '-' = true := by decide
  simp [Uuid.text, front, back, middle, hyphen]

theorem tame_dateText (t : Date) : Tame t.text := by
  have hyphen : isTame '-' = true := by decide
  have plus : isTame '+' = true := by decide
  have year : Tame (yearText t.year) := by
    unfold yearText
    split
    · exact tame_padded _ _
    · split <;> simp [hyphen, plus]
  simp [Date.text, year, hyphen]

theorem tame_timeText (t : TimeOfDay) : Tame t.text := by
  have colon : isTame ':' = true := by decide
  have point : isTame '.' = true := by decide
  have fraction : Tame (fractionText t.nanosecond) := by
    unfold fractionText
    split
    · exact tame_nil
    · split
      · simp [point]
      · split <;> simp [point]
  simp [TimeOfDay.text, fraction, colon]

theorem tame_timestampText (t : Timestamp) {separator : Char} (h : isTame separator = true) :
    Tame (t.text separator) := by
  simp [Timestamp.text, tame_dateText, tame_timeText, h]

theorem calm_numeralText {n : Numeral} (h : n.Digital) : Calm (n.text []) := by
  have signed (negative : Bool) {cs : List Char} (digits : ∀ c ∈ cs, c.isDigit = true)
      (nonempty : cs ≠ []) : Calm ((if negative then ['-'] else []) ++ cs) := by
    cases negative with
    | true => exact Calm.hyphen_digits digits nonempty
    | false => exact calm_digits digits
  have fraction : Calm (if n.fraction = [] then [] else '.' :: n.fraction) := by
    split
    · exact calm_nil
    · exact (calm_digits h.fraction).cons (by decide) (by decide)
  have exponent : Calm (Numeral.exponentText [] n.exponent) := by
    unfold Numeral.exponentText
    split
    · exact calm_nil
    · next e found =>
      exact (signed e.negative (h.exponent e found) (h.exponentNonempty e found)).cons (by decide)
        (by decide)
  exact ((signed n.negative h.whole h.nonempty).append fraction).append exponent

/-! ### Decimals -/

theorem IsSign.calm_append {sign cs : List Char} (signed : IsSign sign) (h : Calm cs)
    (unsigned : Unsigned cs) (nonempty : cs ≠ []) : Calm (sign ++ cs) := by
  obtain ⟨c, rest, rfl⟩ := List.exists_cons_of_ne_nil nonempty
  cases signed with
  | none => exact h
  | plus => exact h.cons (by decide) (by decide)
  | minus => exact h.hyphen ⟨c, rest, rfl, (unsigned c rfl).2⟩

theorem IsPower.calm {cs : List Char} (h : IsPower cs) : Calm cs := by
  cases h with
  | none => exact calm_nil
  | marked mark_eq signed digits nonempty =>
    have power := signed.calm_append (calm_digits digits) (unsigned_digits digits) nonempty
    rcases mark_eq with rfl | rfl
    · exact power.cons (by decide) (by decide)
    · exact power.cons (by decide) (by decide)

theorem IsSignificand.calm {cs : List Char} (h : IsSignificand cs) : Calm cs := by
  cases h with
  | whole digits => exact calm_digits digits
  | pointed digits fraction =>
    exact (calm_digits digits).append ((calm_digits fraction).cons (by decide) (by decide))

theorem IsDecimalNumber.calm {cs : List Char} (h : IsDecimalNumber cs) : Calm cs := by
  cases h with
  | @number sign significand power signed digits raised =>
    have unsigned := digits.unsigned.append digits.ne_nil power
    exact signed.calm_append (digits.calm.append raised.calm) unsigned
      (List.append_ne_nil_of_left_ne_nil digits.ne_nil power)

/-! ## Literals -/

section Literals

variable {d : Dialect} {s : String}

theorem sealed_calm {cs : List Char} (h : Calm cs) : Sealed d (String.ofList cs) :=
  (Calm.settled (by simpa using h)).sealed

theorem sealed_after {w : String} (calm : Calm w.toList) (h : Sealed d s) : Sealed d (w ++ s) :=
  calm.settled.append_sealed h

theorem settled_before {w : String} (h : Sealed d s) (calm : Calm w.toList)
    (nonempty : w.toList ≠ []) : Settled d (s ++ w) :=
  h.append_settled calm.settled (calm.tame.soft nonempty)

theorem floatLiteral_sealed {x : Binary64} (h : floatLiteral d x = .ok s) : Sealed d s := by
  unfold floatLiteral at h
  split at h
  · cases h
    exact sealed_calm (calm_numeralText (Binary64.digital_numeral _ _ x))
  · split at h
    · cases h
      split
      · exact ⟨.outside, by decide, .inl rfl⟩
      · split
        · exact ⟨.outside, by decide, .inl rfl⟩
        · exact ⟨.outside, by decide, .inl rfl⟩
    · cases h

theorem decimalLiteral_sealed {text : String} (h : decimalLiteral d text = .ok s) :
    Sealed d s := by
  obtain ⟨trimmed, number⟩ := decimalLiteral_eq_ok.1 h
  rw [← trimmed] at number
  exact number.calm.settled.sealed

theorem nationalString_sealed (noEscape : d ≠ .mysql) (text : String) :
    Sealed d (nationalString text) :=
  sealed_after (by decide) (sealed_stringLiteral noEscape text)

theorem textLiteral_sealed {text : String} (h : textLiteral d text = .ok s) : Sealed d s := by
  unfold textLiteral at h
  split at h
  · split at h
    · cases h
    · cases h
      exact sealed_stringLiteral (by decide) text
  · cases h
    exact sealed_mysqlString text
  · cases h
    exact sealed_stringLiteral (by decide) text
  · cases h
    exact nationalString_sealed (by decide) text

theorem temporalLiteral_sealed {type serverType : String} (calm : Calm type.toList)
    (calm' : Calm serverType.toList) {cs : List Char} (h : Tame cs) :
    Sealed d (temporalLiteral d type serverType cs) := by
  have named : Calm (type.toList ++ [' ']) := calm.append (by decide)
  have before : Calm " AS ".toList := by decide
  have cast : Calm (" AS ".toList ++ serverType.toList ++ [')']) :=
    (before.append calm').append (by decide)
  unfold temporalLiteral
  cases d with
  | postgres => exact sealed_of_parts (by simp) named h.inert calm_nil
  | mysql => exact sealed_of_parts (by simp) named h.inert calm_nil
  | sqlite => exact sealed_of_parts (f := []) (by simp) calm_nil h.inert calm_nil
  | sqlserver =>
    exact sealed_of_parts (f := "CAST(".toList) (by simp) (by decide) h.inert cast

theorem instantLiteral_sealed (t : Timestamp) : Sealed d (instantLiteral d t) := by
  have text : Tame (t.text ' ') := tame_timestampText t (by decide)
  have offset : Tame (t.text ' ' ++ "+00:00".toList) := tame_append.2 ⟨text, by decide⟩
  have blankOffset : Tame (t.text ' ' ++ " +00:00".toList) := tame_append.2 ⟨text, by decide⟩
  unfold instantLiteral
  cases d with
  | postgres =>
    exact sealed_of_parts (f := "TIMESTAMPTZ ".toList) (b := []) (by simp) (by decide)
      offset.inert calm_nil
  | mysql =>
    exact sealed_of_parts (f := "TIMESTAMP ".toList) (b := []) (by simp) (by decide)
      text.inert calm_nil
  | sqlite =>
    exact sealed_of_parts (f := []) (b := []) (by simp) calm_nil offset.inert calm_nil
  | sqlserver =>
    exact sealed_of_parts (f := "CAST(".toList) (b := " AS DATETIMEOFFSET)".toList) (by simp)
      (by decide) blankOffset.inert (by decide)

theorem uuidLiteral_sealed (u : Uuid) : Sealed d (uuidLiteral d u) := by
  have text : Inert d u.text := (tame_uuidText u).inert
  unfold uuidLiteral Uuid.render
  cases d with
  | postgres =>
    exact sealed_of_parts (f := []) (b := "::uuid".toList) (by simp) calm_nil text (by decide)
  | mysql => exact sealed_of_parts (f := []) (b := []) (by simp) calm_nil text calm_nil
  | sqlite => exact sealed_of_parts (f := []) (b := []) (by simp) calm_nil text calm_nil
  | sqlserver =>
    exact sealed_of_parts (f := "CAST(".toList) (b := " AS UNIQUEIDENTIFIER)".toList)
      (by simp) (by decide) text (by decide)

theorem bytesLiteral_sealed (bytes : List UInt8) : Sealed d (bytesLiteral d bytes) := by
  have lower : Tame (Text.hexBytes Text.hexDigit bytes) := hexBytes_forall isTame_hexDigit bytes
  have upper : Calm (Text.hexBytes Text.hexDigitUpper bytes) :=
    ⟨hexBytes_forall isTame_hexDigitUpper bytes,
      hyphensApart_of_forall (hexBytes_forall hexDigitUpper_ne_hyphen bytes)⟩
  unfold bytesLiteral
  cases d with
  | postgres =>
    have inner : Inert .postgres ("\\x".toList ++ Text.hexBytes Text.hexDigit bytes) :=
      List.forall_mem_append.2 ⟨by simp, lower.inert⟩
    exact sealed_of_parts (f := []) (b := "::bytea".toList) (by simp) calm_nil inner (by decide)
  | mysql =>
    exact sealed_of_parts (f := ['X']) (b := []) (by simp) (by decide) lower.inert calm_nil
  | sqlite =>
    exact sealed_of_parts (f := ['X']) (b := []) (by simp) (by decide) lower.inert calm_nil
  | sqlserver => exact sealed_after (by decide) (sealed_calm upper)

theorem jsonLiteral_sealed (v : Json.Value) : Sealed d (jsonLiteral d v) := by
  unfold jsonLiteral
  cases d with
  | postgres =>
    exact (settled_before (sealed_stringLiteral (by decide) _) (by decide) (by decide)).sealed
  | mysql =>
    exact (settled_before (sealed_after (w := "CAST(") (by decide) (sealed_mysqlString _))
      (by decide) (by decide)).sealed
  | sqlite =>
    exact (settled_before (sealed_after (w := "json(") (by decide)
      (sealed_stringLiteral (by decide) _)) (by decide) (by decide)).sealed
  | sqlserver => exact nationalString_sealed (by decide) _

mutual

/-- Literals are sealed. -/
theorem literal_sealed {d : Dialect} {cell : Cell} {s : String} (h : literal d cell = .ok s) :
    Sealed d s := by
  cases cell with
  | null => cases h; exact (Calm.settled (by decide)).sealed
  | boolean b =>
    cases h
    unfold booleanLiteral
    split <;> split <;> exact (Calm.settled (by decide)).sealed
  | integer n => cases h; exact sealed_calm (calm_decimalInt _)
  | float x => exact floatLiteral_sealed h
  | decimal text => exact decimalLiteral_sealed h
  | text text => exact textLiteral_sealed h
  | date t => cases h; exact temporalLiteral_sealed (by decide) (by decide) (tame_dateText t)
  | time t => cases h; exact temporalLiteral_sealed (by decide) (by decide) (tame_timeText t)
  | timestamp t =>
    cases h
    exact temporalLiteral_sealed (by decide) (by decide) (tame_timestampText t (by decide))
  | instant t => cases h; exact instantLiteral_sealed t
  | uuid u => cases h; exact uuidLiteral_sealed u
  | bytes b => cases h; exact bytesLiteral_sealed b
  | json v => cases h; exact jsonLiteral_sealed v.value
  | array items =>
    unfold literal at h
    split at h
    · split at h
      · cases h
        exact ⟨.closed '\'', by decide, .inr ⟨_, rfl, by decide⟩⟩
      · split at h
        · next elements found =>
          have opening : Settled .postgres "ARRAY[" := rfl
          have closing : Settled .postgres "]" := rfl
          have inner := opening.append_sealed (sealed_commaSeparated (literals_sealed found))
          cases h
          exact (inner.append_settled closing ⟨']', [], rfl, by decide⟩).sealed
        · cases h
    · cases h
      exact jsonLiteral_sealed _

theorem literals_sealed {d : Dialect} {cells : List Cell} {parts : List String}
    (h : literals d cells = .ok parts) : ∀ s ∈ parts, Sealed d s := by
  cases cells with
  | nil =>
    cases h
    exact fun s hs => absurd hs List.not_mem_nil
  | cons cell rest =>
    unfold literals at h
    split at h
    · cases h
    · next first found =>
      split at h
      · next others found' =>
        cases h
        exact List.forall_mem_cons.2 ⟨literal_sealed found, literals_sealed found'⟩
      · cases h

end

end Literals

/-! ## Statements -/

section Statements

variable {d : Dialect} {s : String} {c : Change}

theorem forEach_forall {α β : Type} {f : α → Except Error β} {p : β → Prop}
    (each : ∀ a b, f a = .ok b → p b) {l : List α} {m : List β} (h : forEach f l = .ok m) :
    ∀ b ∈ m, p b := by
  induction l generalizing m with
  | nil =>
    cases h
    exact fun b hb => absurd hb List.not_mem_nil
  | cons a rest ih =>
    unfold forEach at h
    split at h
    · cases h
    · next b found =>
      split at h
      · next bs found' =>
        cases h
        exact List.forall_mem_cons.2 ⟨each a b found, ih found'⟩
      · cases h

theorem forall₂_of_forEach {α β : Type} {f : α → Except Error β} {l : List α} {m : List β}
    (h : forEach f l = .ok m) : List.Forall₂ (fun a b => f a = .ok b) l m := by
  induction l generalizing m with
  | nil =>
    cases h
    exact .nil
  | cons a rest ih =>
    unfold forEach at h
    split at h
    · cases h
    · next b found =>
      split at h
      · next bs found' =>
        cases h
        exact .cons found (ih found')
      · cases h

theorem forColumns_sealed {row : Row} {f : String → Cell → Except Error String}
    (each : ∀ column cell s, f column cell = .ok s → Sealed d s) {parts : List String}
    (h : forColumns row f = .ok parts) : ∀ s ∈ parts, Sealed d s :=
  forEach_forall (fun e s found => each e.1 e.2 s found) h

theorem sealed_nameList (columns : List String) : Sealed d (nameList d columns) := by
  refine sealed_commaSeparated fun s hs => ?_
  obtain ⟨column, -, rfl⟩ := List.mem_map.1 hs
  exact sealed_quoteName d column

theorem sealed_qualifiedName (t : Table) : Sealed d (qualifiedName d t) := by
  have two (a b : String) : Sealed d (quoteName d a ++ "." ++ quoteName d b) :=
    (settled_before (sealed_quoteName d a) (by decide) (by decide)).append_sealed
      (sealed_quoteName d b)
  unfold qualifiedName
  split
  · exact two _ _
  · exact two _ _
  · exact sealed_quoteName _ t.name

theorem assignment_sealed {column : String} {cell : Cell} (h : assignment d column cell = .ok s) :
    Sealed d s := by
  unfold assignment at h
  cases found : literal d cell with
  | error e => rw [found] at h; cases h
  | ok value =>
    rw [found] at h
    cases h
    exact (settled_before (sealed_quoteName d column) (by decide) (by decide)).append_sealed
      (literal_sealed found)

theorem predicate_sealed {column : String} {cell : Cell} (h : predicate d column cell = .ok s) :
    Sealed d s := by
  have name := sealed_quoteName d column
  unfold predicate at h
  split at h
  · cases h
    exact (settled_before name (by decide) (by decide)).sealed
  · split at h
    · next value found =>
      cases h
      exact (settled_before name (by decide) (by decide)).append_sealed (literal_sealed found)
    · cases h

theorem whereClause_sealed (h : whereClause d c = .ok s) : Sealed d s := by
  unfold whereClause at h
  split at h
  · cases h
  · next address _ =>
    cases found : forColumns address.columns (predicate d) with
    | error e => rw [found] at h; cases h
    | ok parts =>
      rw [found] at h
      cases h
      exact sealed_intercalate (by decide) (by decide)
        (forColumns_sealed (fun column cell s => predicate_sealed) found)

theorem returningClause_sealed (keyColumns : Option (List String)) {text : String}
    (h : Sealed d text) : Sealed d (text ++ returningClause d c keyColumns) := by
  unfold returningClause
  split
  · split
    · have clause : Sealed d (" RETURNING " ++ nameList d (‹String› :: ‹List String›)) :=
        sealed_after (by decide) (sealed_nameList _)
      exact h.append clause (Soft.append (Tame.soft (by decide) (by decide)))
    · simpa using h
  · simpa using h

theorem bind_eq_ok {ε α β : Type} {x : Except ε α} {f : α → Except ε β} {b : β}
    (h : (x >>= f) = .ok b) : ∃ a, x = .ok a ∧ f a = .ok b := by
  cases x with
  | error e => cases h
  | ok a => exact ⟨a, rfl, h⟩

/-- The words that statements begin with. -/
def verbs : List String := ["INSERT ", "UPDATE ", "DELETE "]

/-- The text begins like a statement. -/
def OpensWithVerb (s : String) : Prop := ∃ verb ∈ verbs, ∃ rest, s = verb ++ rest

theorem OpensWithVerb.append (h : OpensWithVerb s) (t : String) : OpensWithVerb (s ++ t) := by
  obtain ⟨verb, mem, rest, rfl⟩ := h
  exact ⟨verb, mem, rest ++ t, String.append_assoc⟩

theorem insertStatement_sealed {keyColumns : Option (List String)}
    (h : insertStatement d c keyColumns = .ok s) : Sealed d s ∧ OpensWithVerb s := by
  have into : Sealed d ("INSERT INTO " ++ qualifiedName d c.table) :=
    sealed_after (by decide) (sealed_qualifiedName c.table)
  have opens : OpensWithVerb "INSERT INTO " := ⟨"INSERT ", by decide, "INTO ", rfl⟩
  have whole {body : String} (hb : Settled d body) (soft : Soft d body) :
      Sealed d ("INSERT INTO " ++ qualifiedName d c.table ++ body ++
          returningClause d c keyColumns) ∧
        OpensWithVerb ("INSERT INTO " ++ qualifiedName d c.table ++ body ++
          returningClause d c keyColumns) :=
    ⟨returningClause_sealed keyColumns (into.append_settled hb soft).sealed,
      ((opens.append _).append _).append _⟩
  unfold insertStatement at h
  extract_lets values begin finish at h
  split at h
  · cases h
    split
    · exact whole (Calm.settled (by decide)) (Tame.soft (by decide) (by decide))
    · exact whole (Calm.settled (by decide)) (Tame.soft (by decide) (by decide))
  · obtain ⟨cells, found, h⟩ := bind_eq_ok h
    cases h
    have names : Settled d (" (" ++ nameList d (c.newValues.getD Dict.empty).keys ++ ") VALUES (") :=
      settled_before (sealed_after (by decide) (sealed_nameList _)) (by decide) (by decide)
    have listed : Sealed d (commaSeparated cells) :=
      sealed_commaSeparated (forColumns_sealed (fun _ _ _ => literal_sealed) found)
    have soft : Soft d " (" := Tame.soft (by decide) (by decide)
    exact whole (settled_before (names.append_sealed listed) (by decide) (by decide))
      (soft.append.append.append.append)

theorem updateStatement_parts (h : updateStatement d c = .ok s) :
    (c.newValues.getD Dict.empty).isEmpty = false ∧
      ∃ before condition, Sealed d before ∧ OpensWithVerb before ∧ whereClause d c = .ok condition ∧
        s = before ++ " WHERE " ++ condition := by
  obtain ⟨assignments, ha, h⟩ := bind_eq_ok h
  split at h
  · cases h
  next something =>
  obtain ⟨condition, hw, h⟩ := bind_eq_ok h
  cases h
  have set : Settled d ("UPDATE " ++ qualifiedName d c.table ++ " SET ") :=
    settled_before (sealed_after (by decide) (sealed_qualifiedName c.table)) (by decide) (by decide)
  have assigned : Sealed d (commaSeparated assignments) :=
    sealed_commaSeparated (forColumns_sealed (fun _ _ _ => assignment_sealed) ha)
  have opens : OpensWithVerb "UPDATE " := ⟨"UPDATE ", by decide, "", rfl⟩
  constructor
  · rw [← Bool.not_eq_true]
    intro nothing
    rw [Dict.isEmpty, List.isEmpty_iff] at nothing
    rw [forColumns, nothing] at ha
    cases ha
    exact something rfl
  · exact ⟨_, condition, set.append_sealed assigned, ((opens.append _).append _).append _, hw, rfl⟩

theorem deleteStatement_parts (h : deleteStatement d c = .ok s) :
    ∃ before condition, Sealed d before ∧ OpensWithVerb before ∧ whereClause d c = .ok condition ∧
      s = before ++ " WHERE " ++ condition := by
  obtain ⟨condition, hw, h⟩ := bind_eq_ok h
  cases h
  have opens : OpensWithVerb "DELETE FROM " := ⟨"DELETE ", by decide, "FROM ", rfl⟩
  exact ⟨_, condition, sealed_after (by decide) (sealed_qualifiedName c.table), opens.append _, hw, rfl⟩

theorem sealed_where {before condition : String} (sealed : Sealed d before)
    (opens : OpensWithVerb before) (hw : whereClause d c = .ok condition) :
    Sealed d (before ++ " WHERE " ++ condition) ∧
      OpensWithVerb (before ++ " WHERE " ++ condition) :=
  ⟨(settled_before sealed (by decide) (by decide)).append_sealed (whereClause_sealed hw),
    (opens.append _).append _⟩

/-- Statements are sealed, and begin with a verb. -/
theorem statement_sealed {keyColumns : KeyColumns} (h : statement d keyColumns c = .ok s) :
    Sealed d s ∧ OpensWithVerb s := by
  unfold statement at h
  split at h
  · exact insertStatement_sealed h
  · obtain ⟨-, before, condition, sealed, opens, hw, rfl⟩ := updateStatement_parts h
    exact sealed_where sealed opens hw
  · obtain ⟨before, condition, sealed, opens, hw, rfl⟩ := deleteStatement_parts h
    exact sealed_where sealed opens hw

end Statements

end DraftLedger.Sql

/-! ## Scripts -/

namespace DraftLedger.Script

variable {threshold : Nat} {keyColumns : KeyColumns} {d : Dialect} {scope : Option Table}
  {changes : List Change} {script : Script}

/-- What a compiled script is. -/
structure Compiles (keyColumns : KeyColumns) (d : Dialect) (scope : Option Table)
    (changes : List Change) (script : Script) : Prop where
  statements : Sql.forEach (Sql.statement d keyColumns) (covered scope changes) =
    .ok script.statements
  sql : script.sql = joined script.statements
  changeIds : script.changeIds = (covered scope changes).map (·.id)
  fullRowChanges :
    script.fullRowChanges = ((covered scope changes).filter isFullRowChange).map (·.id)
  fingerprint : script.fingerprint = fingerprintOf d (covered scope changes) script.sql
  target : script.dialect = d ∧ script.scope = scope

theorem compiles_of_compile (h : compile threshold keyColumns d scope changes = .ok script) :
    Compiles keyColumns d scope changes script := by
  unfold compile at h
  simp only at h
  cases found : Sql.forEach (Sql.statement d keyColumns) (covered scope changes) with
  | error e => rw [found] at h; cases h
  | ok statements =>
    rw [found] at h
    cases h
    exact {
      statements := found
      sql := rfl
      changeIds := rfl
      fullRowChanges := rfl
      fingerprint := rfl
      target := ⟨rfl, rfl⟩ }

theorem covered_sublist (scope : Option Table) (changes : List Change) :
    (covered scope changes).Sublist changes := by
  unfold covered
  split
  · exact .refl changes
  · exact List.filter_sublist

theorem Compiles.statements_sealed (h : Compiles keyColumns d scope changes script) :
    ∀ s ∈ script.statements, Sql.Sealed d s ∧ Sql.OpensWithVerb s :=
  Sql.forEach_forall (fun _ _ => Sql.statement_sealed) h.statements

theorem Compiles.sql_opens (h : Compiles keyColumns d scope changes script) :
    script.sql = "" ∨ Sql.OpensWithVerb script.sql := by
  rw [h.sql]
  have each := h.statements_sealed
  cases listed : script.statements with
  | nil => exact .inl rfl
  | cons s rest =>
    rw [listed] at each
    have opens := (each s List.mem_cons_self).2
    refine .inr ?_
    cases rest with
    | nil => simpa [joined] using opens.append ";"
    | cons t rest =>
      have text : joined (s :: t :: rest) = s ++ (";\n" ++ ";\n".intercalate (t :: rest) ++ ";") := by
        simp [joined, String.append_assoc]
      rw [text]
      exact opens.append _

end DraftLedger.Script
