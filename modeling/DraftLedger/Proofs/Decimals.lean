import DraftLedger.Proofs.JsonText
import DraftLedger.Sql.Literal
import Mathlib.Data.List.TakeWhile

/-!
# Decimal literals

A decimal number stands in a statement as it was given, so nothing but a decimal number may stand
there.

* `Text.TrimsTo`, `Text.trimsTo_iff` : what is left of a text without the blanks around it.
* `Sql.IsDecimalNumber` : how decimal numbers are written.
* `Sql.isExponent_iff`, `Sql.isDecimal_iff` : the scanners accept just these texts.
* `Sql.decimalLiteral_eq_ok`, `Sql.decimalLiteral_eq_error` : what is taken as it stands, and what is
  refused.
* `Sql.literal_decimal_iff` : the literal of a decimal cell in every dialect.
-/

set_option autoImplicit false

namespace DraftLedger

/-! ## Blanks around a text -/

namespace Text

variable {s t front back : List Char}

/-- The text `t` is what is left of `s` without the blanks at both ends. -/
structure TrimsTo (s t : List Char) : Prop where
  around : ∃ front back, s = front ++ (t ++ back) ∧ (∀ c ∈ front, isBlank c = true) ∧
    ∀ c ∈ back, isBlank c = true
  opens : ∀ c ∈ t.head?, isBlank c = false
  closes : ∀ c ∈ t.getLast?, isBlank c = false

theorem dropBlanks_of_blanks (blanks : ∀ c ∈ s, isBlank c = true) : dropBlanks s = [] :=
  List.dropWhile_eq_nil_iff.2 blanks

theorem dropBlanks_append (blanks : ∀ c ∈ front, isBlank c = true) :
    dropBlanks (front ++ s) = dropBlanks s :=
  List.dropWhile_append_of_pos blanks

theorem dropBlanks_of_opens (opens : ∀ c ∈ s.head?, isBlank c = false) : dropBlanks s = s := by
  cases s with
  | nil => rfl
  | cons c rest => exact dropBlanks_cons rest (opens c rfl)

theorem dropBlanks_opens (s : List Char) : ∀ c ∈ (dropBlanks s).head?, isBlank c = false := by
  intro c hc
  have first := List.head?_dropWhile_not isBlank s
  rwa [show (s.dropWhile isBlank).head? = some c from hc] at first

theorem blanks_append_dropBlanks (s : List Char) :
    ∃ blanks, s = blanks ++ dropBlanks s ∧ ∀ c ∈ blanks, isBlank c = true :=
  ⟨s.takeWhile isBlank, List.takeWhile_append_dropWhile.symm, fun _ hc =>
    List.all_eq_true.1 List.all_takeWhile _ hc⟩

theorem TrimsTo.eq_trim (h : TrimsTo s t) : t = trim s := by
  obtain ⟨front, back, rfl, before, after⟩ := h.around
  rw [trim, dropBlanks_append before]
  cases t with
  | nil =>
    rw [List.nil_append, dropBlanks_of_blanks after]
    rfl
  | cons c rest =>
    have opens : dropBlanks (c :: rest ++ back) = c :: rest ++ back := dropBlanks_of_opens h.opens
    have closes : dropBlanks (c :: rest).reverse = (c :: rest).reverse := by
      refine dropBlanks_of_opens ?_
      rw [List.head?_reverse]
      exact h.closes
    have after' : ∀ c ∈ back.reverse, isBlank c = true := fun c hc =>
      after c (List.mem_reverse.1 hc)
    rw [opens, List.reverse_append, dropBlanks_append after', closes, List.reverse_reverse]

theorem trimsTo_trim (s : List Char) : TrimsTo s (trim s) := by
  obtain ⟨front, before, blank⟩ := blanks_append_dropBlanks s
  obtain ⟨back, after, blank'⟩ := blanks_append_dropBlanks (dropBlanks s).reverse
  have split : dropBlanks s = trim s ++ back.reverse := by
    rw [trim, ← List.reverse_append, ← after, List.reverse_reverse]
  refine ⟨⟨front, back.reverse, split ▸ before, blank, fun c hc => ?_⟩, fun c hc => ?_,
    fun c hc => ?_⟩
  · exact blank' c (List.mem_reverse.1 hc)
  · refine dropBlanks_opens s c ?_
    rw [split, List.head?_append, Option.mem_def.1 hc]
    rfl
  · rw [trim, List.getLast?_reverse] at hc
    exact dropBlanks_opens _ c hc

/-- There is one such text, the trimmed one. -/
theorem trimsTo_iff : TrimsTo s t ↔ t = trim s :=
  ⟨TrimsTo.eq_trim, fun eq => eq ▸ trimsTo_trim s⟩

end Text

/-! ## Decimal numbers -/

namespace Sql

variable {cs rest sign : List Char}

def Digits (ds : List Char) : Prop := ∀ c ∈ ds, c.isDigit = true

/-- One sign, or none. -/
inductive IsSign : List Char → Prop
  | none : IsSign []
  | plus : IsSign ['+']
  | minus : IsSign ['-']

/-- Digits with at most one point, and a digit before or after it. -/
inductive IsSignificand : List Char → Prop
  | whole {ds : List Char} (digits : Digits ds) (nonempty : ds ≠ []) : IsSignificand ds
  | pointed {ds fs : List Char} (digits : Digits ds) (fraction : Digits fs)
      (nonempty : ds ≠ [] ∨ fs ≠ []) : IsSignificand (ds ++ '.' :: fs)

/-- A mark, perhaps a sign, and at least one digit; or nothing. -/
inductive IsPower : List Char → Prop
  | none : IsPower []
  | marked {mark : Char} {sign ds : List Char} (mark_eq : mark = 'e' ∨ mark = 'E')
      (signed : IsSign sign) (digits : Digits ds) (nonempty : ds ≠ []) :
      IsPower (mark :: (sign ++ ds))

/-- How a decimal number is written. -/
inductive IsDecimalNumber : List Char → Prop
  | number {sign significand power : List Char} (signed : IsSign sign)
      (digits : IsSignificand significand) (raised : IsPower power) :
      IsDecimalNumber (sign ++ (significand ++ power))

/-! ### Signs -/

/-- A text that does not start with a sign. -/
def Unsigned (cs : List Char) : Prop := ∀ c ∈ cs.head?, c ≠ '+' ∧ c ≠ '-'

theorem dropSign_append (signed : IsSign sign) (unsigned : Unsigned rest) :
    dropSign (sign ++ rest) = rest := by
  cases signed with
  | none =>
    rw [List.nil_append]
    unfold dropSign
    split
    · exact absurd rfl (unsigned _ rfl).1
    · exact absurd rfl (unsigned _ rfl).2
    · rfl
  | plus => rfl
  | minus => rfl

theorem sign_append_dropSign (cs : List Char) : ∃ sign, IsSign sign ∧ cs = sign ++ dropSign cs := by
  unfold dropSign
  split
  · exact ⟨_, .plus, rfl⟩
  · exact ⟨_, .minus, rfl⟩
  · exact ⟨_, .none, rfl⟩

theorem unsigned_digits (digits : Digits cs) : Unsigned cs := by
  intro c hc
  have digit := digits c (List.mem_of_mem_head? hc)
  constructor
  · rintro rfl
    cases digit
  · rintro rfl
    cases digit

theorem Unsigned.append (h : Unsigned cs) (nonempty : cs ≠ []) (rest : List Char) :
    Unsigned (cs ++ rest) := by
  obtain ⟨c, cs, rfl⟩ := List.exists_cons_of_ne_nil nonempty
  exact h

/-! ### Digits -/

theorem digits_scanned (cs : List Char) : Digits (Numeral.scanDigits cs).1 := fun _ hc =>
  List.all_eq_true.1 List.all_takeWhile _ hc

theorem scanned_append (cs : List Char) :
    cs = (Numeral.scanDigits cs).1 ++ (Numeral.scanDigits cs).2 :=
  List.takeWhile_append_dropWhile.symm

theorem scanDigits_of_digits {ds : List Char} (digits : Digits ds) :
    Numeral.scanDigits ds = (ds, []) := by
  have scanned : Numeral.scanDigits (ds ++ []) = (ds, []) :=
    Numeral.scanDigits_append digits nofun
  rwa [List.append_nil] at scanned

/-! ### Exponents -/

theorem IsPower.noDigit (h : IsPower cs) : Numeral.NoDigit cs := by
  cases h with
  | none => exact nofun
  | marked mark_eq =>
    refine Numeral.noDigit_cons ?_
    rcases mark_eq with rfl | rfl <;> rfl

theorem isPower_of_isExponent (h : isExponent cs = true) : IsPower cs := by
  unfold isExponent at h
  split at h
  · exact .none
  next mark rest =>
    split at h
    next mark_eq =>
      obtain ⟨sign, signed, split⟩ := sign_append_dropSign rest
      have scanned := scanned_append (dropSign rest)
      have digits := digits_scanned (dropSign rest)
      rcases scan : Numeral.scanDigits (dropSign rest) with ⟨_ | ⟨d, ds⟩, left⟩
      · simp [scan] at h
      · simp only [scan, List.isEmpty_iff] at h scanned digits
        rw [split, scanned, h, List.append_nil]
        exact .marked mark_eq signed digits (List.cons_ne_nil d ds)
    · cases h

theorem IsPower.isExponent (h : IsPower cs) : isExponent cs = true := by
  cases h with
  | none => rfl
  | @marked mark sign ds mark_eq signed digits nonempty =>
    have bare := dropSign_append signed (unsigned_digits digits)
    obtain ⟨d, ds, rfl⟩ := List.exists_cons_of_ne_nil nonempty
    simp [Sql.isExponent, mark_eq, bare, scanDigits_of_digits digits]

theorem isExponent_iff : isExponent cs = true ↔ IsPower cs :=
  ⟨isPower_of_isExponent, IsPower.isExponent⟩

/-! ### Numbers -/

theorem isDecimalNumber_of_isDecimal (h : isDecimal cs = true) : IsDecimalNumber cs := by
  obtain ⟨sign, signed, split⟩ := sign_append_dropSign cs
  have scanned := scanned_append (dropSign cs)
  have digits := digits_scanned (dropSign cs)
  rcases scan : Numeral.scanDigits (dropSign cs) with ⟨ds, left⟩
  simp only [scan] at scanned digits
  simp only [isDecimal, scan, Bool.and_eq_true, Bool.not_eq_true', Bool.and_eq_false_iff,
    List.isEmpty_eq_false_iff, isExponent_iff] at h
  rw [split, scanned]
  split at h
  · next fraction =>
    have pointed : IsSignificand (ds ++ '.' :: (Numeral.scanDigits fraction).1) :=
      .pointed digits (digits_scanned fraction) h.1
    have number := IsDecimalNumber.number signed pointed h.2
    rwa [List.append_assoc, List.cons_append, ← scanned_append] at number
  · have whole : IsSignificand ds := .whole digits (h.1.resolve_right fun none => none rfl)
    exact .number signed whole h.2

theorem IsSignificand.ne_nil (h : IsSignificand cs) : cs ≠ [] := by
  cases h with
  | whole _ nonempty => exact nonempty
  | pointed => exact List.append_ne_nil_of_right_ne_nil _ (List.cons_ne_nil _ _)

theorem IsSignificand.unsigned (h : IsSignificand cs) : Unsigned cs := by
  cases h with
  | whole digits => exact unsigned_digits digits
  | @pointed ds fs digits =>
    cases ds with
    | nil =>
      intro c hc
      obtain rfl : '.' = c := Option.some.inj hc
      decide
    | cons d ds => exact (unsigned_digits digits).append (List.cons_ne_nil d ds) _

theorem IsDecimalNumber.isDecimal (h : IsDecimalNumber cs) : isDecimal cs = true := by
  cases h with
  | @number sign significand power signed digits raised =>
    have bare := dropSign_append signed (digits.unsigned.append digits.ne_nil power)
    have exponent := raised.isExponent
    cases digits with
    | whole digits nonempty =>
      have scan := Numeral.scanDigits_append digits raised.noDigit
      simp only [Sql.isDecimal, bare, scan]
      split
      · cases raised with
        | marked mark_eq => simp at mark_eq
      · simp [nonempty, exponent]
    | @pointed ds fs digits fraction nonempty =>
      have stop : Numeral.NoDigit ('.' :: (fs ++ power)) := Numeral.noDigit_cons rfl
      have scan := Numeral.scanDigits_append digits stop
      have scan' := Numeral.scanDigits_append fraction raised.noDigit
      rw [List.append_assoc, List.cons_append] at bare
      simpa [Sql.isDecimal, bare, scan, scan', exponent] using nonempty

theorem isDecimal_iff : isDecimal cs = true ↔ IsDecimalNumber cs :=
  ⟨isDecimalNumber_of_isDecimal, IsDecimalNumber.isDecimal⟩

/-! ## Literals -/

variable {d : Dialect} {s text : String}

theorem decimalLiteral_of_number (number : IsDecimalNumber (Text.trim s.toList)) :
    decimalLiteral d s = .ok (String.ofList (Text.trim s.toList)) :=
  if_pos (isDecimal_iff.2 number)

theorem decimalLiteral_of_not_number (other : ¬ IsDecimalNumber (Text.trim s.toList)) :
    decimalLiteral d s = .error (.unsupportedValue d "decimal" (.notDecimal s)) :=
  if_neg fun accepted => other (isDecimal_iff.1 accepted)

theorem decimalLiteral_eq_ok :
    decimalLiteral d s = .ok text ↔
      text.toList = Text.trim s.toList ∧ IsDecimalNumber (Text.trim s.toList) := by
  by_cases number : IsDecimalNumber (Text.trim s.toList)
  · rw [decimalLiteral_of_number number]
    constructor
    · rintro ⟨⟩
      exact ⟨String.toList_ofList, number⟩
    · rintro ⟨trimmed, -⟩
      rw [← trimmed, String.ofList_toList]
  · rw [decimalLiteral_of_not_number number]
    exact ⟨nofun, fun h => absurd h.2 number⟩

theorem decimalLiteral_eq_error :
    decimalLiteral d s = .error (.unsupportedValue d "decimal" (.notDecimal s)) ↔
      ¬ IsDecimalNumber (Text.trim s.toList) := by
  refine ⟨fun refused number => ?_, decimalLiteral_of_not_number⟩
  rw [decimalLiteral_of_number number] at refused
  cases refused

/-- A decimal cell has a literal just when its text is a decimal number apart from the blanks around
it, and then the number is the literal. Every other text is refused, in all dialects alike. -/
theorem literal_decimal_iff (d : Dialect) (s : String) :
    (∀ t, literal d (.decimal s) = .ok t ↔
      Text.TrimsTo s.toList t.toList ∧ IsDecimalNumber t.toList) ∧
    (literal d (.decimal s) = .error (.unsupportedValue d "decimal" (.notDecimal s)) ↔
      ∀ t, Text.TrimsTo s.toList t → ¬ IsDecimalNumber t) := by
  simp only [literal, Text.trimsTo_iff, forall_eq]
  refine ⟨fun t => ?_, decimalLiteral_eq_error⟩
  rw [decimalLiteral_eq_ok]
  refine and_congr_right fun trimmed => ?_
  rw [trimmed]

example : literal .mysql (.decimal "\t-.5E+03 ") = .ok "-.5E+03" := rfl

/-- A point needs a digit next to it. -/
example : literal .mysql (.decimal " . ") =
    .error (.unsupportedValue .mysql "decimal" (.notDecimal " . ")) := rfl

end Sql

end DraftLedger
