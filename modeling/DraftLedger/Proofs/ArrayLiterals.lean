import DraftLedger.Proofs.NumeralText
import DraftLedger.Proofs.Statements
import DraftLedger.Proofs.Unquoting

/-!
# What array literals tell apart

* `Json.ReadAlike` : numerals that are read as one number.
* `Cell.SameShape` : cells of the same type, arrays with items of the same shapes in order.
* `Cell.Alike` : items of the same shape that have the same literal. These are floating-point numbers
  that are not finite, and decimals that are read as the same number; other items are alike only when
  they are equal.
* `Sql.Told` : what stands in a list of literals can be told apart without its end being marked.
* `Sql.literal_array_eq_iff` : in every dialect, two arrays of the same shape have the same literal just
  when their items are alike.
-/

set_option autoImplicit false

namespace DraftLedger

/-! ## Texts of scalars -/

theorem injective_of_reads {α : Type} {write : α → List Char} {read? : List Char → Option α}
    (reads : ∀ a, read? (write a) = some a) : Function.Injective write := by
  intro a b eq
  have read := reads a
  rw [eq, reads b] at read
  exact (Option.some.inj read).symm

theorem Date.text_injective : Function.Injective Date.text := injective_of_reads Date.read?_text

theorem TimeOfDay.text_injective : Function.Injective TimeOfDay.text :=
  injective_of_reads TimeOfDay.read?_text

theorem Timestamp.text_injective (separator : Char) : Function.Injective (Timestamp.text separator) := by
  intro a b eq
  have date := Calendar.scanDate?_text a.date (separator :: a.time.text)
  have same : a.date.text ++ separator :: a.time.text = b.date.text ++ separator :: b.time.text := eq
  rw [same, Calendar.scanDate?_text] at date
  obtain ⟨dates, times⟩ := Prod.mk.inj (Option.some.inj date)
  obtain ⟨_, _⟩ := a
  obtain ⟨_, _⟩ := b
  cases dates
  cases TimeOfDay.text_injective (List.cons.inj times).2
  rfl

theorem Timestamp.utcText_injective : Function.Injective Timestamp.utcText :=
  injective_of_reads Timestamp.readUtc?_utcText

theorem Uuid.text_injective : Function.Injective Uuid.text := injective_of_reads Uuid.read?_text

theorem Text.hexBytes_injective : Function.Injective (hexBytes hexDigit) :=
  injective_of_reads ofHexBytes?_hexBytes

/-! ## Numerals that are read as one number -/

namespace Json

variable {m n : Numeral}

def IsWord (n : Numeral) : Prop := ∃ i, n.int? = some i ∧ leastInteger ≤ i ∧ i ≤ greatestInteger

/-- Two numerals are the same integer of 64 bits, or none of them is one and they come to the same
finite floating-point number. -/
inductive ReadAlike (m n : Numeral) : Prop
  | integer {i : Int} (first : m.int? = some i) (second : n.int? = some i)
      (fits : leastInteger ≤ i ∧ i ≤ greatestInteger)
  | float {x : Binary64} (finite : x.isFinite = true) (first : ¬ IsWord m ∧ m.binary64? = some x)
      (second : ¬ IsWord n ∧ n.binary64? = some x)

theorem float?_eq_some_iff {x : Binary64} (finite : x.isFinite = true) :
    numberOf?.float? n = some (.float x finite) ↔ n.binary64? = some x := by
  unfold numberOf?.float?
  cases n.binary64? with
  | none => simp
  | some y =>
    by_cases finite' : y.isFinite = true
    · simp [finite']
    · have differ : y ≠ x := fun same => finite' (same ▸ finite)
      simp [finite', differ]

theorem float?_ne_integer {i : Int} (fits : leastInteger ≤ i ∧ i ≤ greatestInteger) :
    numberOf?.float? n ≠ some (.integer i fits) := by
  unfold numberOf?.float?
  split
  · split <;> simp
  · simp

theorem numberOf?_eq_integer_iff {i : Int} (fits : leastInteger ≤ i ∧ i ≤ greatestInteger) :
    numberOf? n = some (.integer i fits) ↔ n.int? = some i := by
  unfold numberOf?
  cases int : n.int? with
  | none => simpa using float?_ne_integer fits
  | some k =>
    by_cases word : leastInteger ≤ k ∧ k ≤ greatestInteger
    · simp [word]
    · have differ : k ≠ i := fun same => word (same ▸ fits)
      simpa [word, differ] using float?_ne_integer fits

theorem numberOf?_eq_float_iff {x : Binary64} (finite : x.isFinite = true) :
    numberOf? n = some (.float x finite) ↔ ¬ IsWord n ∧ n.binary64? = some x := by
  unfold numberOf? IsWord
  cases int : n.int? with
  | none => simpa using float?_eq_some_iff finite
  | some k =>
    by_cases word : leastInteger ≤ k ∧ k ≤ greatestInteger
    · simp [word]
    · simpa [word] using float?_eq_some_iff finite

theorem readAlike_iff : ReadAlike m n ↔ ∃ v, numberOf? m = some v ∧ numberOf? n = some v := by
  constructor
  · rintro (⟨first, second, fits⟩ | ⟨finite, first, second⟩)
    · exact ⟨_, (numberOf?_eq_integer_iff fits).2 first, (numberOf?_eq_integer_iff fits).2 second⟩
    · exact ⟨_, (numberOf?_eq_float_iff finite).2 first, (numberOf?_eq_float_iff finite).2 second⟩
  · rintro ⟨⟨i, fits⟩ | ⟨x, finite⟩, first, second⟩
    · exact .integer ((numberOf?_eq_integer_iff fits).1 first)
        ((numberOf?_eq_integer_iff fits).1 second) fits
    · exact .float finite ((numberOf?_eq_float_iff finite).1 first)
        ((numberOf?_eq_float_iff finite).1 second)

end Json

namespace Cell

/-! ## Shapes -/

mutual

/-- Cells of the same type. Arrays have equally many items, of the same shapes in order. -/
inductive SameShape : Cell → Cell → Prop
  | null : SameShape .null .null
  | boolean (a b : Bool) : SameShape (.boolean a) (.boolean b)
  | integer (a b : Int64) : SameShape (.integer a) (.integer b)
  | float (a b : Binary64) : SameShape (.float a) (.float b)
  | decimal (a b : String) : SameShape (.decimal a) (.decimal b)
  | text (a b : String) : SameShape (.text a) (.text b)
  | date (a b : Date) : SameShape (.date a) (.date b)
  | time (a b : TimeOfDay) : SameShape (.time a) (.time b)
  | timestamp (a b : Timestamp) : SameShape (.timestamp a) (.timestamp b)
  | instant (a b : Timestamp) : SameShape (.instant a) (.instant b)
  | uuid (a b : Uuid) : SameShape (.uuid a) (.uuid b)
  | bytes (a b : List UInt8) : SameShape (.bytes a) (.bytes b)
  | json (a b : Json.OrderedValue) : SameShape (.json a) (.json b)
  | array {as bs : List Cell} (items : SameShapes as bs) : SameShape (.array as) (.array bs)

/-- Equally many cells, of the same shapes in order. -/
inductive SameShapes : List Cell → List Cell → Prop
  | nil : SameShapes [] []
  | cons {a b : Cell} {as bs : List Cell} (first : SameShape a b) (others : SameShapes as bs) :
      SameShapes (a :: as) (b :: bs)

end

/-! ## Likeness -/

/-- Floating-point items that have the same literal: all not-a-numbers in Postgres, and all that are
not finite elsewhere. -/
def floatsAlike (d : Dialect) (x y : Binary64) : Prop :=
  x = y ∨
    match d with
    | .postgres => x.isNaN = true ∧ y.isNaN = true
    | _ => x.isFinite = false ∧ y.isFinite = false

/-- Decimal items that have the same literal: texts that are the same without the blanks around them
in Postgres; elsewhere only numbers in the grammar of JSON that are read as one. -/
def decimalsAlike (d : Dialect) (s t : String) : Prop :=
  match d with
  | .postgres => Text.trim s.toList = Text.trim t.toList
  | _ => s = t ∨ ∃ m n, Numeral.ofText? s.toList = some m ∧ Numeral.ofText? t.toList = some n ∧
      Json.ReadAlike m n

mutual

/-- Items that have the same literal. -/
def Alike (d : Dialect) : Cell → Cell → Prop
  | .float x, .float y => floatsAlike d x y
  | .decimal s, .decimal t => decimalsAlike d s t
  | .array as, .array bs => AllAlike d as bs
  | a, b => a = b

def AllAlike (d : Dialect) : List Cell → List Cell → Prop
  | [], [] => True
  | a :: as, b :: bs => a.Alike d b ∧ AllAlike d as bs
  | _, _ => False

end

variable {d : Dialect}

/-! ## Arrays as JSON values -/

theorem floatView_eq_iff (other : d ≠ .postgres) {x y : Binary64} :
    floatView x = floatView y ↔ floatsAlike d x y := by
  have special : floatsAlike d x y ↔ x = y ∨ x.isFinite = false ∧ y.isFinite = false := by
    cases d <;> first | exact absurd rfl other | rfl
  rw [special]
  unfold floatView
  by_cases finite : x.isFinite = true <;> by_cases finite' : y.isFinite = true
  · simp [finite, finite']
  · have differ : x ≠ y := fun same => finite' (same ▸ finite)
    simp [finite, finite', differ]
  · have differ : x ≠ y := fun same => finite (same ▸ finite')
    simp [finite, finite', differ]
  · simp [finite, finite']

theorem decimalsAlike_iff (other : d ≠ .postgres) {s t : String} :
    decimalsAlike d s t ↔ s = t ∨
      ∃ v, (Numeral.ofText? s.toList).bind Json.numberOf? = some v ∧
        (Numeral.ofText? t.toList).bind Json.numberOf? = some v := by
  have alike : decimalsAlike d s t ↔ s = t ∨ ∃ m n, Numeral.ofText? s.toList = some m ∧
      Numeral.ofText? t.toList = some n ∧ Json.ReadAlike m n := by
    cases d <;> first | exact absurd rfl other | rfl
  simp only [alike, Json.readAlike_iff, Option.bind_eq_some_iff]
  refine or_congr_right ⟨?_, ?_⟩
  · rintro ⟨m, n, first, second, v, read, read'⟩
    exact ⟨v, ⟨m, first, read⟩, n, second, read'⟩
  · rintro ⟨v, ⟨m, first, read⟩, n, second, read'⟩
    exact ⟨m, n, first, second, v, read, read'⟩

theorem decimalView_eq_iff (other : d ≠ .postgres) {s t : String} :
    decimalView s = decimalView t ↔ decimalsAlike d s t := by
  rw [decimalsAlike_iff other]
  unfold decimalView
  cases first : (Numeral.ofText? s.toList).bind Json.numberOf? with
  | none =>
    have differ (same : s = t) : (Numeral.ofText? t.toList).bind Json.numberOf? = none := same ▸ first
    cases second : (Numeral.ofText? t.toList).bind Json.numberOf? with
    | none => simp
    | some w => simpa [second] using differ
  | some v =>
    have same (eq : s = t) : (Numeral.ofText? t.toList).bind Json.numberOf? = some v := eq ▸ first
    cases second : (Numeral.ofText? t.toList).bind Json.numberOf? with
    | none => simpa [second] using same
    | some w => simpa [second, eq_comm] using same

theorem stringView_eq_iff {cs cs' : List Char} : stringView cs = stringView cs' ↔ cs = cs' := by
  simp [stringView, String.ofList_inj]

theorem integerView_eq_iff {m n : Int64} : integerView m = integerView n ↔ m = n := by
  simp [integerView, Int64.toInt_inj]

mutual

theorem view_eq_iff (other : d ≠ .postgres) {a b : Cell} (shape : SameShape a b) :
    a.view = b.view ↔ a.Alike d b := by
  cases shape with
  | null => exact ⟨fun _ => rfl, fun _ => rfl⟩
  | boolean a b => simp [view, Alike]
  | integer a b => simp [view, Alike, integerView_eq_iff]
  | float a b => exact floatView_eq_iff other
  | decimal a b => exact decimalView_eq_iff other
  | text a b => simp [view, Alike]
  | date a b => simp [view, Alike, stringView_eq_iff, Date.text_injective.eq_iff]
  | time a b => simp [view, Alike, stringView_eq_iff, TimeOfDay.text_injective.eq_iff]
  | timestamp a b => simp [view, Alike, stringView_eq_iff, (Timestamp.text_injective _).eq_iff]
  | instant a b => simp [view, Alike, stringView_eq_iff, Timestamp.utcText_injective.eq_iff]
  | uuid a b => simp [view, Alike, stringView_eq_iff, Uuid.text_injective.eq_iff]
  | bytes a b => simp [view, Alike, stringView_eq_iff, Text.hexBytes_injective.eq_iff]
  | json a b =>
    obtain ⟨v, _⟩ := a
    obtain ⟨w, _⟩ := b
    simp [view, Alike]
  | array items =>
    rw [view, view, Alike, ← itemsView_eq_iff other items]
    exact ⟨Json.Value.array.inj, congrArg _⟩

theorem itemsView_eq_iff (other : d ≠ .postgres) {as bs : List Cell} (shapes : SameShapes as bs) :
    itemsView as = itemsView bs ↔ AllAlike d as bs := by
  cases shapes with
  | nil => exact ⟨fun _ => trivial, fun _ => rfl⟩
  | cons first others =>
    rw [itemsView, itemsView, AllAlike, ← view_eq_iff other first, ← itemsView_eq_iff other others,
      List.cons.injEq]

end

end Cell

namespace Sql

open Cell

variable {d : Dialect}

theorem quoteString_injective (d : Dialect) : Function.Injective (quoteString d) := by
  intro s t eq
  have reads (u : String) : stringAt? d ((quoteString d u).toList ++ []) = some (u, []) :=
    stringAt?_quoteString d (by simp) u
  have read := reads s
  rw [eq, reads t] at read
  exact (Prod.mk.inj (Option.some.inj read)).1.symm

theorem jsonLiteral_injective (d : Dialect) : Function.Injective (jsonLiteral d) := by
  intro v w eq
  rw [jsonLiteral_parts, jsonLiteral_parts, ← String.toList_inj] at eq
  simp only [String.toList_append, List.append_assoc, List.append_cancel_left_eq,
    List.append_cancel_right_eq, String.toList_inj] at eq
  exact Json.Value.text_injective (String.ofList_injective (quoteString_injective d eq))

/-- The literals of arrays as JSON values are the same when their items are alike. -/
theorem literal_array_eq_iff_of_ne (other : d ≠ .postgres) {as bs : List Cell} {s t : String}
    (shapes : SameShapes as bs) (ha : literal d (.array as) = .ok s)
    (hb : literal d (.array bs) = .ok t) : s = t ↔ AllAlike d as bs := by
  have written (items : List Cell) :
      literal d (.array items) = .ok (jsonLiteral d (.array (itemsView items))) := by
    cases d <;> first | exact absurd rfl other | rfl
  rw [written] at ha hb
  cases ha
  cases hb
  rw [(jsonLiteral_injective d).eq_iff, Json.Value.array.injEq, itemsView_eq_iff other shapes]

/-! ## Arrays of literals -/

/-- The text has no comma and no bracket that could end an item. -/
def Open (cs : List Char) : Prop := ∀ c ∈ cs, ¬ (c = ',' ∨ c = ']')

instance (cs : List Char) : Decidable (Open cs) := List.decidableBAll _ cs

/-- An item of an array ends before this text. -/
def ItemEnds (rest : List Char) : Prop := ∀ c ∈ rest.head?, c = ',' ∨ c = ']'

/-- Whatever comes after their literals in an array, two cells are told apart unless they are alike. -/
def Told (a b : Cell) : Prop :=
  ∀ s t rest rest', literal .postgres a = .ok s → literal .postgres b = .ok t → ItemEnds rest →
    ItemEnds rest' → s.toList ++ rest = t.toList ++ rest' → a.Alike .postgres b ∧ rest = rest'

/-- The same for the items of two arrays and what comes after the closing brackets. -/
def AllTold (as bs : List Cell) : Prop :=
  ∀ ss ts rest rest', literals .postgres as = .ok ss → literals .postgres bs = .ok ts →
    (commaSeparated ss).toList ++ ']' :: rest = (commaSeparated ts).toList ++ ']' :: rest' →
    AllAlike .postgres as bs ∧ rest = rest'

section Marks

variable {p : Char → Prop} {cs cs' rest rest' : List Char}

/-- Texts without marks are told from what comes after them, if that begins with a mark. -/
theorem unmarked_append_inj (unmarked : ∀ c ∈ cs, ¬ p c) (unmarked' : ∀ c ∈ cs', ¬ p c)
    (mark : ∀ c ∈ rest.head?, p c) (mark' : ∀ c ∈ rest'.head?, p c)
    (eq : cs ++ rest = cs' ++ rest') : cs = cs' ∧ rest = rest' := by
  induction cs generalizing cs' with
  | nil =>
    cases cs' with
    | nil => exact ⟨rfl, eq⟩
    | cons c cs' => exact absurd (mark c (by rw [show rest = _ from eq]; rfl)) (unmarked' c (by simp))
  | cons c cs ih =>
    cases cs' with
    | nil => exact absurd (mark' c (by rw [show rest' = _ from eq.symm]; rfl)) (unmarked c (by simp))
    | cons c' cs' =>
      obtain ⟨rfl, tails⟩ := List.cons.inj eq
      obtain ⟨rfl, same⟩ := ih (fun c hc => unmarked c (List.mem_cons_of_mem _ hc))
        (fun c hc => unmarked' c (List.mem_cons_of_mem _ hc)) tails
      exact ⟨rfl, same⟩

end Marks

section Items

variable {α : Type} (make : α → Cell)

/-- Cells whose literals have no comma and no bracket. -/
theorem told_of_open (plain : ∀ a s, literal .postgres (make a) = .ok s → Open s.toList)
    (same : ∀ a b s, literal .postgres (make a) = .ok s → literal .postgres (make b) = .ok s →
      (make a).Alike .postgres (make b)) (a b : α) : Told (make a) (make b) := by
  intro s t rest rest' ha hb ends ends' eq
  obtain ⟨texts, rests⟩ := unmarked_append_inj (plain a s ha) (plain b t hb) ends ends' eq
  obtain rfl := String.toList_inj.1 texts
  exact ⟨same a b s ha hb, rests⟩

/-- Cells whose literals have one string without quotes inside, between the same words. -/
theorem told_of_quoted (front back : List Char) {text : α → List Char}
    (written : ∀ a s, literal .postgres (make a) = .ok s →
      s.toList = front ++ '\'' :: (text a ++ '\'' :: back))
    (plain : ∀ a, Inert .postgres (text a))
    (same : ∀ a b, text a = text b → (make a).Alike .postgres (make b)) (a b : α) :
    Told (make a) (make b) := by
  intro s t rest rest' ha hb ends ends' eq
  rw [written a s ha, written b t hb, List.append_assoc, List.append_assoc, List.cons_append,
    List.cons_append, List.append_assoc, List.append_assoc] at eq
  have inner := (List.cons.inj (List.append_cancel_left eq)).2
  obtain ⟨texts, closed⟩ := unmarked_append_inj (p := (· = '\''))
    (fun c hc => (plain a c hc).1) (fun c hc => (plain b c hc).1) (by simp) (by simp) inner
  exact ⟨same a b texts, List.append_cancel_left (List.cons.inj closed).2⟩

theorem ItemEnds.apart {rest : List Char} (ends : ItemEnds rest) : rest.head? ≠ some '\'' := by
  intro quote
  have mark := ends '\'' quote
  revert mark
  decide

theorem told_of_string (back : String) {text : α → String}
    (written : ∀ a s, literal .postgres (make a) = .ok s → s = stringLiteral (text a) ++ back)
    (apart : ∀ rest, ItemEnds rest → (back.toList ++ rest).head? ≠ some '\'')
    (same : ∀ a b, text a = text b → (make a).Alike .postgres (make b)) (a b : α) :
    Told (make a) (make b) := by
  intro s t rest rest' ha hb ends ends' eq
  rw [written a s ha, written b t hb] at eq
  simp only [String.toList_append, List.append_assoc] at eq
  have read := stringAt?_stringLiteral (d := .postgres) (by decide) (apart rest ends) (text a)
  rw [eq, stringAt?_stringLiteral (by decide) (apart rest' ends') (text b)] at read
  obtain ⟨texts, rests⟩ := Prod.mk.inj (Option.some.inj read)
  exact ⟨same a b texts.symm, (List.append_cancel_left rests).symm⟩

end Items

/-! ### Numbers -/

section Numbers

variable {cs cs' : List Char}

theorem open_nil : Open [] := fun _ h => absurd h List.not_mem_nil

theorem Open.append (h : Open cs) (h' : Open cs') : Open (cs ++ cs') :=
  List.forall_mem_append.2 ⟨h, h'⟩

theorem Open.cons {c : Char} (plain : ¬ (c = ',' ∨ c = ']')) (h : Open cs) : Open (c :: cs) :=
  List.forall_mem_cons.2 ⟨plain, h⟩

theorem open_digits (h : ∀ c ∈ cs, c.isDigit = true) : Open cs := by
  intro c hc mark
  have digit := h c hc
  rcases mark with rfl | rfl <;> revert digit <;> decide

theorem open_numeralText {n : Numeral} (h : n.Digital) : Open (n.text []) := by
  have sign (negative : Bool) : Open (if negative then ['-'] else []) := by
    cases negative <;> decide
  have exponent : Open (Numeral.exponentText [] n.exponent) := by
    cases e : n.exponent with
    | none => exact open_nil
    | some x => exact .cons (by decide) ((sign _).append (open_digits (h.exponent x e)))
  have fraction : Open n.fractionText := by
    unfold Numeral.fractionText
    split
    · exact open_nil
    · exact .cons (by decide) (open_digits h.fraction)
  rw [Numeral.text_eq_parts]
  exact (sign _).append ((open_digits h.whole).append (fraction.append exponent))

theorem IsSign.isOpen (h : IsSign cs) : Open cs := by
  cases h <;> decide

theorem IsPower.isOpen (h : IsPower cs) : Open cs := by
  cases h with
  | none => exact open_nil
  | marked mark_eq signed digits =>
    have power := signed.isOpen.append (open_digits digits)
    rcases mark_eq with rfl | rfl
    · exact power.cons (by decide)
    · exact power.cons (by decide)

theorem IsSignificand.isOpen (h : IsSignificand cs) : Open cs := by
  cases h with
  | whole digits => exact open_digits digits
  | pointed digits fraction =>
    exact (open_digits digits).append ((open_digits fraction).cons (by decide))

theorem IsDecimalNumber.isOpen (h : IsDecimalNumber cs) : Open cs := by
  cases h with
  | number signed digits raised => exact signed.isOpen.append (digits.isOpen.append raised.isOpen)

end Numbers

theorem told_integer (m n : Int64) : Told (.integer m) (.integer n) := by
  have text (n : Int64) : Text.decimalInt n.toInt = (Numeral.ofInt n.toInt).text [] := by
    unfold Text.decimalInt Numeral.ofInt Numeral.text
    split <;> simp_all [Numeral.exponentText]
  refine told_of_open Cell.integer (fun n s h => ?_) (fun m n s hm hn => ?_) m n
  · cases h
    rw [String.toList_ofList, text]
    exact open_numeralText (Numeral.digital_ofInt _)
  have same := String.ofList_injective (Except.ok.inj (hm.trans hn.symm))
  rw [text, text] at same
  have whole := congrArg Numeral.int? (Numeral.text_injective (.inl rfl) (Numeral.digital_ofInt _)
    (Numeral.digital_ofInt _) same)
  rw [Numeral.int?_ofInt, Numeral.int?_ofInt] at whole
  exact congrArg Cell.integer (Int64.toInt_inj.1 (Option.some.inj whole))

theorem open_floatLiteral {x : Binary64} {s : String} (h : floatLiteral .postgres x = .ok s) :
    Open s.toList := by
  unfold floatLiteral at h
  split at h
  · cases h
    rw [floatText, String.toList_ofList]
    exact open_numeralText (Binary64.digital_numeral _ _ x)
  · cases h
    split
    · decide
    · split <;> decide

/-- The literal of a floating-point number in Postgres is a quoted name just when the number is not
finite. -/
theorem floatLiteral_postgres {x : Binary64} {s : String} (h : floatLiteral .postgres x = .ok s) :
    (x.isFinite = true ∧ s = floatText x ∧ '\'' ∉ s.toList) ∨
      (x.isFinite = false ∧ '\'' ∈ s.toList ∧
        ((x.isNaN = true ∧ s = "'NaN'::float8") ∨
          (x.isNaN = false ∧ x.negative = true ∧ s = "'-Infinity'::float8") ∨
          (x.isNaN = false ∧ x.negative = false ∧ s = "'Infinity'::float8"))) := by
  unfold floatLiteral at h
  split at h
  next finite =>
    cases h
    refine .inl ⟨finite, rfl, fun quote => ?_⟩
    rw [floatText, String.toList_ofList] at quote
    have tame := (calm_numeralText (Binary64.digital_numeral _ _ x)).tame _ quote
    revert tame
    decide
  next infinite =>
    cases h
    refine .inr ⟨Bool.eq_false_iff.2 infinite, ?_⟩
    cases x.isNaN
    · cases x.negative <;> simp
    · simp

theorem floatLiteral_alike {x y : Binary64} {s : String} (hx : floatLiteral .postgres x = .ok s)
    (hy : floatLiteral .postgres y = .ok s) : floatsAlike .postgres x y := by
  rcases floatLiteral_postgres hx with ⟨finite, text, plain⟩ | ⟨infinite, quoted, kind⟩
  · rcases floatLiteral_postgres hy with ⟨finite', text', -⟩ | ⟨-, quoted', -⟩
    · have same := String.ofList_injective (text.symm.trans text')
      exact .inl (Binary64.numeral_injective finite finite' (Numeral.text_injective (.inl rfl)
        (Binary64.digital_numeral _ _ x) (Binary64.digital_numeral _ _ y) same))
    · exact absurd quoted' plain
  · rcases floatLiteral_postgres hy with ⟨-, -, plain'⟩ | ⟨infinite', -, kind'⟩
    · exact absurd quoted plain'
    · rcases kind with ⟨nan, rfl⟩ | ⟨number, sign, rfl⟩ | ⟨number, sign, rfl⟩ <;>
        rcases kind' with ⟨nan', text'⟩ | ⟨number', sign', text'⟩ | ⟨number', sign', text'⟩
      · exact .inr ⟨nan, nan'⟩
      all_goals first
        | exact absurd text' (by decide)
        | exact .inl (by
            rw [Binary64.eq_infinity infinite number, Binary64.eq_infinity infinite' number', sign,
              sign'])

theorem told_float (x y : Binary64) : Told (.float x) (.float y) :=
  told_of_open Cell.float (fun _ _ h => open_floatLiteral h)
    (fun _ _ _ hx hy => floatLiteral_alike hx hy) x y

theorem told_decimal (s t : String) : Told (.decimal s) (.decimal t) := by
  refine told_of_open Cell.decimal (fun text s h => ?_) (fun s t u hs ht => ?_) s t
  · obtain ⟨trimmed, number⟩ := decimalLiteral_eq_ok.1 h
    exact (trimmed ▸ number).isOpen
  · exact (decimalLiteral_eq_ok.1 hs).1.symm.trans (decimalLiteral_eq_ok.1 ht).1

/-! ### Other scalars -/

theorem told_text (s t : String) : Told (.text s) (.text t) := by
  refine told_of_string Cell.text "" (fun s u h => ?_) (fun rest ends => ends.apart)
    (fun s t same => congrArg Cell.text same) s t
  rw [literal] at h
  rw [String.append_empty]
  exact (textLiteral_eq_ok.1 h).2

theorem told_json (v w : Json.OrderedValue) : Told (.json v) (.json w) := by
  refine told_of_string Cell.json "::jsonb" (fun v u h => (Except.ok.inj h).symm)
    (fun rest ends => by simp) (fun v w same => ?_) v w
  have values := Json.Value.text_injective (String.ofList_injective same)
  obtain ⟨_, _⟩ := v
  obtain ⟨_, _⟩ := w
  cases values
  rfl

theorem told_date (t u : Date) : Told (.date t) (.date u) := by
  refine told_of_quoted Cell.date "DATE ".toList [] (fun t s h => ?_)
    (fun t => (tame_dateText t).inert)
    (fun t u same => congrArg Cell.date (Date.text_injective same)) t u
  cases h
  simp [temporalLiteral]

theorem told_time (t u : TimeOfDay) : Told (.time t) (.time u) := by
  refine told_of_quoted Cell.time "TIME ".toList [] (fun t s h => ?_)
    (fun t => (tame_timeText t).inert)
    (fun t u same => congrArg Cell.time (TimeOfDay.text_injective same)) t u
  cases h
  simp [temporalLiteral]

theorem told_timestamp (t u : Timestamp) : Told (.timestamp t) (.timestamp u) := by
  refine told_of_quoted Cell.timestamp "TIMESTAMP ".toList [] (fun t s h => ?_)
    (fun t => (tame_timestampText t (by decide)).inert)
    (fun t u same => congrArg Cell.timestamp (Timestamp.text_injective ' ' same)) t u
  cases h
  simp [temporalLiteral]

theorem told_instant (t u : Timestamp) : Told (.instant t) (.instant u) := by
  have plain (t : Timestamp) : Inert .postgres (t.text ' ' ++ "+00:00".toList) :=
    (tame_append.2 ⟨tame_timestampText t (by decide), by decide⟩).inert
  refine told_of_quoted Cell.instant "TIMESTAMPTZ ".toList [] (fun t s h => ?_) plain
    (fun t u same => congrArg Cell.instant
      (Timestamp.text_injective ' ' (List.append_cancel_right same))) t u
  cases h
  simp [instantLiteral]

theorem told_uuid (u v : Uuid) : Told (.uuid u) (.uuid v) := by
  refine told_of_quoted Cell.uuid [] "::uuid".toList (fun u s h => ?_)
    (fun u => (tame_uuidText u).inert)
    (fun u v same => congrArg Cell.uuid (Uuid.text_injective same)) u v
  cases h
  simp [uuidLiteral, Uuid.render]

theorem told_bytes (a b : List UInt8) : Told (.bytes a) (.bytes b) := by
  have plain (bytes : List UInt8) :
      Inert .postgres ("\\x".toList ++ Text.hexBytes Text.hexDigit bytes) :=
    List.forall_mem_append.2 ⟨by simp, Tame.inert (hexBytes_forall isTame_hexDigit bytes)⟩
  refine told_of_quoted Cell.bytes [] "::bytea".toList (fun bytes s h => ?_) plain
    (fun a b same => congrArg Cell.bytes
      (Text.hexBytes_injective (List.append_cancel_left same))) a b
  cases h
  simp [bytesLiteral]

theorem told_boolean (a b : Bool) : Told (.boolean a) (.boolean b) := by
  refine told_of_open Cell.boolean (fun a s h => ?_) (fun a b s ha hb => ?_) a b
  · cases h
    cases a <;> decide
  have same : booleanLiteral .postgres a = booleanLiteral .postgres b :=
    Except.ok.inj (ha.trans hb.symm)
  refine congrArg Cell.boolean ?_
  revert same
  cases a <;> cases b <;> decide

theorem told_null : Told .null .null := by
  intro s t rest rest' ha hb _ _ eq
  cases ha
  cases hb
  exact ⟨rfl, List.append_cancel_left eq⟩

/-! ### Items one after another -/

theorem literals_cons {a : Cell} {as : List Cell} {parts : List String}
    (h : literals d (a :: as) = .ok parts) :
    ∃ s ss, literal d a = .ok s ∧ literals d as = .ok ss ∧ parts = s :: ss := by
  unfold literals at h
  split at h
  · cases h
  next s first =>
    split at h
    next ss others =>
      cases h
      exact ⟨s, ss, first, others, rfl⟩
    · cases h

theorem commaSeparated_cons_cons (s s' : String) (ss : List String) :
    (commaSeparated (s :: s' :: ss)).toList =
      s.toList ++ (", ".toList ++ (commaSeparated (s' :: ss)).toList) := by
  rw [commaSeparated, String.intercalate_cons_of_ne_nil (by simp), commaSeparated]
  simp

theorem literal_array_postgres {items : List Cell} {s : String}
    (h : literal .postgres (.array items) = .ok s) :
    (items = [] ∧ s = "'\x7b\x7d'") ∨
      (items ≠ [] ∧ ∃ ss, literals .postgres items = .ok ss ∧
        s = "ARRAY[" ++ commaSeparated ss ++ "]") := by
  unfold literal at h
  simp only at h
  split at h
  next empty =>
    cases h
    exact .inl ⟨List.isEmpty_iff.1 empty, rfl⟩
  next some =>
    split at h
    next ss found =>
      cases h
      exact .inr ⟨fun empty => some (List.isEmpty_iff.2 empty), ss, found, rfl⟩
    · cases h

theorem told_array {as bs : List Cell} (empty : as = [] ↔ bs = []) (each : AllTold as bs) :
    Told (.array as) (.array bs) := by
  intro s t rest rest' ha hb _ _ eq
  rcases literal_array_postgres ha with ⟨none, rfl⟩ | ⟨some, ss, found, rfl⟩
  · rcases literal_array_postgres hb with ⟨none', rfl⟩ | ⟨some', -⟩
    · rw [none, none']
      exact ⟨trivial, List.append_cancel_left eq⟩
    · exact absurd (empty.1 none) some'
  · rcases literal_array_postgres hb with ⟨none', -⟩ | ⟨-, ts, found', rfl⟩
    · exact absurd (empty.2 none') some
    · simp only [String.toList_append, List.append_assoc] at eq
      exact each ss ts rest rest' found found' (List.append_cancel_left eq)

theorem allTold_cons {a b : Cell} {as bs : List Cell} (empty : as = [] ↔ bs = []) (one : Told a b)
    (more : AllTold as bs) : AllTold (a :: as) (b :: bs) := by
  intro parts parts' rest rest' ha hb eq
  obtain ⟨s, ss, first, others, rfl⟩ := literals_cons ha
  obtain ⟨t, ts, first', others', rfl⟩ := literals_cons hb
  have comma (cs : List Char) : ItemEnds (", ".toList ++ cs) := by simp [ItemEnds]
  have bracket (cs : List Char) : ItemEnds (']' :: cs) := by simp [ItemEnds]
  cases as with
  | nil =>
    obtain rfl := empty.1 rfl
    cases others
    cases others'
    rw [commaSeparated, commaSeparated, String.intercalate_singleton,
      String.intercalate_singleton] at eq
    obtain ⟨alike, rests⟩ := one s t _ _ first first' (bracket _) (bracket _) eq
    exact ⟨⟨alike, trivial⟩, (List.cons.inj rests).2⟩
  | cons a' as =>
    obtain ⟨b', bs, rfl⟩ := List.exists_cons_of_ne_nil fun none => absurd (empty.2 none) (by simp)
    obtain ⟨s', ss, -, -, rfl⟩ := literals_cons others
    obtain ⟨t', ts, -, -, rfl⟩ := literals_cons others'
    rw [commaSeparated_cons_cons, commaSeparated_cons_cons, List.append_assoc, List.append_assoc,
      List.append_assoc, List.append_assoc] at eq
    obtain ⟨alike, rests⟩ := one s t _ _ first first' (comma _) (comma _) eq
    obtain ⟨alikes, after⟩ := more _ _ rest rest' others others' (List.append_cancel_left rests)
    exact ⟨⟨alike, alikes⟩, after⟩

theorem sameShapes_empty {as bs : List Cell} (shapes : SameShapes as bs) : as = [] ↔ bs = [] := by
  cases shapes <;> simp

mutual

/-- Cells of the same shape are told apart unless they are alike. -/
theorem told {a b : Cell} (shape : SameShape a b) : Told a b := by
  cases shape with
  | null => exact told_null
  | boolean a b => exact told_boolean a b
  | integer a b => exact told_integer a b
  | float a b => exact told_float a b
  | decimal a b => exact told_decimal a b
  | text a b => exact told_text a b
  | date a b => exact told_date a b
  | time a b => exact told_time a b
  | timestamp a b => exact told_timestamp a b
  | instant a b => exact told_instant a b
  | uuid a b => exact told_uuid a b
  | bytes a b => exact told_bytes a b
  | json a b => exact told_json a b
  | array items => exact told_array (sameShapes_empty items) (allTold items)

/-- The items of two arrays of the same shape are told apart unless they are alike in order. -/
theorem allTold {as bs : List Cell} (shapes : SameShapes as bs) : AllTold as bs := by
  cases shapes with
  | nil =>
    intro ss ts rest rest' ha hb eq
    cases ha
    cases hb
    exact ⟨trivial, (List.cons.inj (List.append_cancel_left eq)).2⟩
  | cons first others => exact allTold_cons (sameShapes_empty others) (told first) (allTold others)

end

/-! ### Alike items -/

theorem eq_of_literal_eq {a b : Cell} {s t : String} (same : a = b) (ha : literal d a = .ok s)
    (hb : literal d b = .ok t) : s = t := by
  subst same
  exact Except.ok.inj (ha.symm.trans hb)

theorem floatLiteral_of_isNaN {x : Binary64} {s : String} (nan : x.isNaN = true)
    (h : floatLiteral .postgres x = .ok s) : s = "'NaN'::float8" := by
  rcases floatLiteral_postgres h with ⟨finite, -⟩ | ⟨-, -, ⟨-, text⟩ | ⟨number, -⟩ | ⟨number, -⟩⟩
  · have low : x.magnitude < Binary64.infinityMagnitude := of_decide_eq_true finite
    have high : Binary64.infinityMagnitude < x.magnitude := of_decide_eq_true nan
    omega
  · exact text
  · exact absurd nan (Bool.eq_false_iff.1 number)
  · exact absurd nan (Bool.eq_false_iff.1 number)

theorem floatLiteral_of_alike {x y : Binary64} {s t : String} (alike : floatsAlike .postgres x y)
    (hx : floatLiteral .postgres x = .ok s) (hy : floatLiteral .postgres y = .ok t) : s = t := by
  rcases alike with rfl | ⟨nan, nan'⟩
  · exact Except.ok.inj (hx.symm.trans hy)
  · rw [floatLiteral_of_isNaN nan hx, floatLiteral_of_isNaN nan' hy]

theorem decimalLiteral_of_alike {text text' s t : String} (alike : decimalsAlike .postgres text text')
    (hs : decimalLiteral .postgres text = .ok s) (ht : decimalLiteral .postgres text' = .ok t) :
    s = t := by
  have trimmed := (decimalLiteral_eq_ok.1 hs).1
  rw [show Text.trim _ = Text.trim _ from alike, ← (decimalLiteral_eq_ok.1 ht).1] at trimmed
  exact String.toList_injective trimmed

mutual

theorem literal_of_alike {a b : Cell} {s t : String} (shape : SameShape a b)
    (alike : a.Alike .postgres b) (ha : literal .postgres a = .ok s)
    (hb : literal .postgres b = .ok t) : s = t := by
  cases shape with
  | float a b => exact floatLiteral_of_alike alike ha hb
  | decimal a b => exact decimalLiteral_of_alike alike ha hb
  | array items =>
    have each (ss ts : List String) : literals .postgres _ = .ok ss → literals .postgres _ = .ok ts →
        ss = ts := literals_of_allAlike items alike
    rcases literal_array_postgres ha with ⟨none, rfl⟩ | ⟨some, ss, found, rfl⟩
    · rcases literal_array_postgres hb with ⟨none', rfl⟩ | ⟨some', -⟩
      · rfl
      · exact absurd ((sameShapes_empty items).1 none) some'
    · rcases literal_array_postgres hb with ⟨none', -⟩ | ⟨-, ts, found', rfl⟩
      · exact absurd ((sameShapes_empty items).2 none') some
      · rw [each ss ts found found']
  | _ => exact eq_of_literal_eq alike ha hb

theorem literals_of_allAlike {as bs : List Cell} {ss ts : List String} (shapes : SameShapes as bs)
    (alike : AllAlike .postgres as bs) (ha : literals .postgres as = .ok ss)
    (hb : literals .postgres bs = .ok ts) : ss = ts := by
  cases shapes with
  | nil => exact Except.ok.inj (ha.symm.trans hb)
  | cons first others =>
    obtain ⟨s, ss, hs, hss, rfl⟩ := literals_cons ha
    obtain ⟨t, ts, ht, hts, rfl⟩ := literals_cons hb
    rw [literal_of_alike first alike.1 hs ht, literals_of_allAlike others alike.2 hss hts]

end

/-! ## All dialects -/

theorem literals_forall {cells : List Cell} {parts : List String}
    (h : literals d cells = .ok parts) : ∀ c ∈ cells, ∃ s, literal d c = .ok s := by
  induction cells generalizing parts with
  | nil => exact fun c hc => absurd hc List.not_mem_nil
  | cons c rest ih =>
    obtain ⟨s, ss, first, others, -⟩ := literals_cons h
    exact List.forall_mem_cons.2 ⟨⟨s, first⟩, ih others⟩

/-- Arrays of the same shape have the same literal just when their items are alike. In Postgres every
item of such an array has a literal of its own. -/
theorem literal_array_eq_iff (d : Dialect) {as bs : List Cell} {s t : String}
    (shapes : SameShapes as bs) (ha : literal d (.array as) = .ok s)
    (hb : literal d (.array bs) = .ok t) :
    (s = t ↔ AllAlike d as bs) ∧
      (d = .postgres → ∀ c ∈ as, ∃ part, literal d c = .ok part) := by
  by_cases postgres : d = .postgres
  · subst postgres
    have ends : ItemEnds [] := fun c hc => by cases hc
    refine ⟨⟨fun same => ?_, fun alike => literal_of_alike (.array shapes) alike ha hb⟩, fun _ => ?_⟩
    · exact (told (.array shapes) s t [] [] ha hb ends ends (by rw [same])).1
    · rcases literal_array_postgres ha with ⟨rfl, -⟩ | ⟨-, parts, found, -⟩
      · exact fun c hc => absurd hc List.not_mem_nil
      · exact literals_forall found
  · exact ⟨literal_array_eq_iff_of_ne postgres shapes ha hb, fun same => absurd same postgres⟩

end Sql

namespace Sample

open Cell Sql

/-- A quote, a comma and a blank at the end of one item, or at the beginning of the next. -/
def quoteBefore : List Cell := [.text "a', '", .text "b"]

def quoteAfter : List Cell := [.text "a", .text "', 'b"]

theorem literal_array_eq_iff_quoteBefore :
    SameShapes quoteBefore quoteAfter ∧
      literal .postgres (.array quoteBefore) = .ok "ARRAY['a'', ''', 'b']" ∧
      literal .postgres (.array quoteAfter) = .ok "ARRAY['a', ''', ''b']" ∧
      ¬ AllAlike .postgres quoteBefore quoteAfter := by
  have shapes : SameShapes quoteBefore quoteAfter := .cons (.text _ _) (.cons (.text _ _) .nil)
  have first : literal .postgres (.array quoteBefore) = .ok "ARRAY['a'', ''', 'b']" := rfl
  have second : literal .postgres (.array quoteAfter) = .ok "ARRAY['a', ''', ''b']" := rfl
  have told := (literal_array_eq_iff .postgres shapes first second).1
  exact ⟨shapes, first, second, fun alike => absurd (told.2 alike) (by decide)⟩

/-- A little more than a tenth, by less than a floating-point number can tell. -/
def fine : String := "0.10000000000000000001"

/-- Two decimals, and two floating-point numbers, that are different but have the same literal as the
item of an array. By itself the decimal keeps its digits, and the floating-point number is refused. -/
theorem array_blurred :
    (literal .mysql (.array [.decimal fine]) = .ok "CAST('[0.1]' AS JSON)" ∧
      literal .mysql (.array [.decimal "0.1"]) = .ok "CAST('[0.1]' AS JSON)" ∧
      (Numeral.ofText? fine.toList).map Numeral.magnitude ≠
        (Numeral.ofText? "0.1".toList).map Numeral.magnitude ∧
      literal .mysql (.decimal fine) = .ok fine) ∧
    (literal .sqlite (.array [.float .nan]) = .ok "json('[null]')" ∧
      literal .sqlite (.array [.float .infinity]) = .ok "json('[null]')" ∧
      literal .sqlite (.float .nan) = .error (.unsupportedValue .sqlite "float" .nonFinite)) := by
  refine ⟨⟨rfl, rfl, fun same => ?_, rfl⟩, rfl, rfl, rfl⟩
  have digits : Text.ofDecimal "010000000000000000001".toList = 10000000000000000001 := rfl
  have digit : Text.ofDecimal "01".toList = 1 := rfl
  have tenths : (Text.ofDecimal "010000000000000000001".toList : ℚ) * 10 ^ (0 - 20 : ℤ) =
      Text.ofDecimal "01".toList * 10 ^ (0 - 1 : ℤ) := Option.some.inj same
  rw [digits, digit] at tenths
  norm_num at tenths

end Sample

end DraftLedger
