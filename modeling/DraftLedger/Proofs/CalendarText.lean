import DraftLedger.Calendar
import DraftLedger.Proofs.JsonText
import Mathlib.Algebra.Group.Nat.Defs

/-!
# Dates and times read back

A day or a time that has been written is read as the same day or time, also with a year that has a
sign, in a leap second, and with any fraction of a second.

* `Calendar.scanDate?_text`, `Calendar.scanTime?_text` : the front of a text.
* `Date.read?_text`, `TimeOfDay.read?_text`, `Timestamp.read?_text`, `Timestamp.readUtc?_utcText` :
  whole texts.
-/

set_option autoImplicit false

namespace DraftLedger

/-! ## Digits -/

namespace Text

theorem isBlank_of_isDigit {c : Char} (h : c.isDigit = true) : isBlank c = false := by
  have range : 48 ≤ c.toNat ∧ c.toNat ≤ 57 := by
    simp only [Char.isDigit, Bool.and_eq_true, decide_eq_true_eq, ge_iff_le,
      UInt32.le_iff_toNat_le] at h
    exact h
  simp only [isBlank, Bool.or_eq_false_iff, Bool.and_eq_false_iff, decide_eq_false_iff_not,
    beq_eq_false_iff_ne]
  omega

variable {width n : Nat}

theorem isDigit_of_mem_padded {c : Char} (h : c ∈ padded width n) : c.isDigit = true := by
  rcases List.mem_append.1 h with zero | digit
  · rw [(List.mem_replicate.1 zero).2]
    decide
  · exact isDigit_of_mem_decimal digit

theorem length_padded (positive : 0 < width) (fits : n < 10 ^ width) :
    (padded width n).length = width := by
  have le : (decimal n).length ≤ width :=
    (Nat.length_toDigits_le_iff (by decide) positive).2 fits
  simp only [padded, List.length_append, List.length_replicate]
  omega

theorem padded_ne_nil (width n : Nat) : padded width n ≠ [] := by
  simp [padded, decimal]

theorem ofDecimal_padded (width n : Nat) : ofDecimal (padded width n) = n := by
  have zeros : Nat.ofDigitChars 10 (List.replicate (width - (decimal n).length) '0') 0 = 0 := by
    rw [Nat.ofDigitChars_replicate_zero, Nat.mul_zero]
  rw [ofDecimal, padded, Nat.ofDigitChars_append, zeros]
  exact ofDecimal_decimal n

theorem dropBlanks_padded (width n : Nat) (rest : List Char) :
    dropBlanks (padded width n ++ rest) = padded width n ++ rest := by
  obtain ⟨c, cs, eq⟩ := List.exists_cons_of_ne_nil (padded_ne_nil width n)
  have digit : c.isDigit = true := isDigit_of_mem_padded (eq ▸ List.mem_cons_self)
  rw [eq, List.cons_append, dropBlanks_cons _ (isBlank_of_isDigit digit)]

end Text

open Numeral (NoDigit noDigit_cons)

namespace Calendar

variable {rest : List Char}

/-! ## Numbers -/

/-- Digits are read as their number if as many may be read and no digit follows. -/
theorem scanNumber?_append {width : Nat} {ds : List Char} (nonempty : ds ≠ [])
    (digits : ∀ c ∈ ds, c.isDigit = true) (le : ds.length ≤ width)
    (stop : NoDigit (rest.take (width - ds.length))) :
    scanNumber? width (ds ++ rest) = some (Text.ofDecimal ds, rest) := by
  have front : ((ds ++ rest).take width).takeWhile Char.isDigit = ds := by
    have whole := congrArg Prod.fst (Numeral.scanDigits_append digits stop)
    rw [List.take_append, List.take_of_length_le le]
    exact whole
  unfold scanNumber?
  rw [front]
  cases ds with
  | nil => exact absurd rfl nonempty
  | cons d ds => simp only [List.drop_left]

theorem scanNumber?_padded {width n : Nat} (positive : 0 < width) (fits : n < 10 ^ width) :
    scanNumber? width (Text.padded width n ++ rest) = some (n, rest) := by
  have length := Text.length_padded positive fits
  rw [scanNumber?_append (Text.padded_ne_nil width n) (fun _ => Text.isDigit_of_mem_padded)
    (Nat.le_of_eq length), Text.ofDecimal_padded]
  rw [length, Nat.sub_self, List.take_zero]
  exact fun c hc => by cases hc

theorem scanPair?_padded {n : Nat} (fits : n < 100) :
    scanPair? (Text.padded 2 n ++ rest) = some (n, rest) := by
  rw [scanPair?, Text.dropBlanks_padded]
  exact scanNumber?_padded (by decide) fits

theorem scanMark?_cons {mark : Char} (printed : Text.isBlank mark = false) (rest : List Char) :
    scanMark? mark (mark :: rest) = some rest := by
  rw [scanMark?, Text.dropBlanks_cons _ printed]
  simp

/-! ## Dates -/

theorem scanYear?_yearText (year : Int) (rest : List Char) :
    scanYear? (yearText year ++ '-' :: rest) = some (year, '-' :: rest) := by
  have signed (n : Nat) : scanNumber? (Text.padded 4 n ++ '-' :: rest).length
      (Text.padded 4 n ++ '-' :: rest) = some (n, '-' :: rest) := by
    rw [scanNumber?_append (Text.padded_ne_nil 4 n) (fun _ => Text.isDigit_of_mem_padded) (by simp),
      Text.ofDecimal_padded]
    rw [List.length_append, Nat.add_sub_cancel_left, List.take_length]
    exact noDigit_cons (by decide)
  unfold yearText
  split
  · next small =>
    have fits : year.toNat < 10 ^ 4 := by omega
    have digits : scanNumber? 4 (Text.padded 4 year.toNat ++ '-' :: rest) =
        some (year.toNat, '-' :: rest) := scanNumber?_padded (by decide) fits
    obtain ⟨c, cs, eq⟩ := List.exists_cons_of_ne_nil (Text.padded_ne_nil 4 year.toNat)
    have digit : c.isDigit = true := Text.isDigit_of_mem_padded (eq ▸ List.mem_cons_self)
    have notMinus : c ≠ '-' := by
      rintro rfl
      revert digit
      decide
    have notPlus : c ≠ '+' := by
      rintro rfl
      revert digit
      decide
    have value : (year.toNat : Int) = year := by omega
    rw [scanYear?, Text.dropBlanks_padded]
    rw [eq, List.cons_append] at digits ⊢
    split
    · next same => exact absurd (List.cons.inj same).1 notMinus
    · next same => exact absurd (List.cons.inj same).1 notPlus
    · rw [digits, Option.map_some, value]
  · next large =>
    by_cases negative : year < 0
    · have value : -((year.natAbs : Nat) : Int) = year := by omega
      rw [if_pos negative, List.cons_append, scanYear?, Text.dropBlanks_cons _ (by decide)]
      simp only [signed, Option.map_some, value]
    · have value : ((year.natAbs : Nat) : Int) = year := by omega
      rw [if_neg negative, List.cons_append, scanYear?, Text.dropBlanks_cons _ (by decide)]
      simp only [signed, Option.map_some, value]

theorem daysInMonth_le (year : Int) (month : Nat) : daysInMonth year month ≤ 31 := by
  unfold daysInMonth
  split <;> (try split) <;> omega

theorem month_lt {year : Int} {month day : Nat} (h : 1 ≤ day ∧ day ≤ daysInMonth year month) :
    month < 13 := by
  unfold daysInMonth at h
  split at h <;> omega

theorem scanDate?_text (d : Date) (rest : List Char) :
    scanDate? (d.text ++ rest) = some (d, rest) := by
  have month : d.month < 100 := by
    have := month_lt d.day_mem
    omega
  have day : d.day < 100 := by
    have := daysInMonth_le d.year d.month
    have := d.day_mem.2
    omega
  have made : Date.of? d.year d.month d.day = some d := dif_pos ⟨d.year_mem, d.day_mem⟩
  have text : d.text ++ rest = yearText d.year ++ '-' :: (Text.padded 2 d.month ++
      '-' :: (Text.padded 2 d.day ++ rest)) := by simp [Date.text]
  rw [text]
  simp only [scanDate?, scanYear?_yearText, scanMark?_cons (show Text.isBlank '-' = false by decide),
    scanPair?_padded month, scanPair?_padded day, made, Option.bind_eq_bind, Option.bind_some]

/-! ## Times -/

/-- A fraction of a second ends before this text. -/
def Stops (rest : List Char) : Prop := ∀ c ∈ rest.head?, c.isDigit = false ∧ c ≠ '.'

theorem scanFraction?_digits {width n : Nat} (unit : Nat) (positive : 0 < width) (le : width ≤ 9)
    (fits : n < 10 ^ width) (scaled : 10 ^ (9 - width) = unit) (stop : Stops rest) :
    scanFraction? ('.' :: Text.padded width n ++ rest) = some (n * unit, rest) := by
  have length := Text.length_padded positive fits
  have digits : ∀ c ∈ Text.padded width n, c.isDigit = true := fun _ => Text.isDigit_of_mem_padded
  have noDigit : NoDigit rest := fun c hc => (stop c hc).1
  have noDigit' : NoDigit (rest.take (9 - width)) := by
    intro c hc
    refine noDigit c ?_
    cases rest with
    | nil => simp at hc
    | cons d ds =>
      cases left : 9 - width with
      | zero => simp [left] at hc
      | succ k => simpa [left] using hc
  have front : ((Text.padded width n ++ rest).take 9).takeWhile Char.isDigit = Text.padded width n := by
    have whole := congrArg Prod.fst (Numeral.scanDigits_append digits noDigit')
    rw [List.take_append, List.take_of_length_le (by omega), length]
    exact whole
  have back : (Text.padded width n ++ rest).dropWhile Char.isDigit = rest :=
    congrArg Prod.snd (Numeral.scanDigits_append digits noDigit)
  rw [List.cons_append, scanFraction?]
  simp only [front, back]
  split
  · next none => exact absurd none (Text.padded_ne_nil width n)
  · rw [Text.ofDecimal_padded, length, Nat.pow_eq, scaled]

theorem scanFraction?_fractionText {n : Nat} (fits : n < 1000000000) (stop : Stops rest) :
    scanFraction? (fractionText n ++ rest) = some (n, rest) := by
  unfold fractionText
  split
  · next zero =>
    rw [List.nil_append, zero, scanFraction?]
    rintro cs rfl
    exact (stop '.' rfl).2 rfl
  split
  · next whole =>
    rw [scanFraction?_digits 1000000 (by decide) (by decide) (by omega) rfl stop]
    congr 2
    omega
  split
  · next whole =>
    rw [scanFraction?_digits 1000 (by decide) (by decide) (by omega) rfl stop]
    congr 2
    omega
  · rw [scanFraction?_digits 1 (by decide) (by decide) fits rfl stop, Nat.mul_one]

theorem scanMinutes?_text (t : TimeOfDay) (rest : List Char) :
    scanMinutes? (t.text ++ rest) = some ((t.hour, t.minute),
      ':' :: (Text.padded 2 t.second ++ (fractionText t.nanosecond ++ rest))) := by
  have hour := t.hour_lt
  have minute := t.minute_lt
  have text : t.text ++ rest = Text.padded 2 t.hour ++ ':' :: (Text.padded 2 t.minute ++
      ':' :: (Text.padded 2 t.second ++ (fractionText t.nanosecond ++ rest))) := by
    simp [TimeOfDay.text]
  rw [text]
  simp only [scanMinutes?, scanMark?_cons (show Text.isBlank ':' = false by decide),
    scanPair?_padded (show t.hour < 100 by omega), scanPair?_padded (show t.minute < 100 by omega),
    Option.bind_eq_bind, Option.bind_some]

theorem scanSeconds?_text (t : TimeOfDay) (stop : Stops rest) :
    scanSeconds? (':' :: (Text.padded 2 t.second ++ (fractionText t.nanosecond ++ rest))) =
      some ((t.second, t.nanosecond), rest) := by
  have second := t.second_lt
  simp only [scanSeconds?, scanMark?_cons (show Text.isBlank ':' = false by decide),
    scanPair?_padded (show t.second < 100 by omega),
    scanFraction?_fractionText t.nanosecond_lt stop, second, Option.bind_eq_bind, Option.bind_some,
    if_true]

theorem timeOf?_self (t : TimeOfDay) :
    TimeOfDay.of? t.hour t.minute t.second t.nanosecond = some t :=
  dif_pos ⟨t.hour_lt, t.minute_lt, t.second_lt, t.nanosecond_lt⟩

theorem scanTime?_text (t : TimeOfDay) (stop : Stops rest) :
    scanTime? (t.text ++ rest) = some (t, rest) := by
  simp only [scanTime?, scanMinutes?_text, scanSeconds?_text t stop, timeOf?_self,
    Option.bind_eq_bind, Option.bind_some]

theorem stops_nil : Stops [] := fun c hc => by cases hc

theorem finish?_nil {α : Type} (a : α) : finish? (some (a, [])) = some a := rfl

end Calendar

open Calendar

/-! ## Whole texts -/

theorem Date.read?_text (d : Date) : Date.read? d.text = some d := by
  have scanned := scanDate?_text d []
  rw [List.append_nil] at scanned
  rw [Date.read?, scanned, finish?_nil]

theorem TimeOfDay.read?_text (t : TimeOfDay) : TimeOfDay.read? t.text = some t := by
  have minutes := scanMinutes?_text t []
  have seconds := scanSeconds?_text t stops_nil
  rw [List.append_nil] at minutes
  simp only [TimeOfDay.read?, minutes, seconds, Option.getD_some, timeOf?_self, Option.map_some,
    finish?_nil]

theorem Timestamp.read?_text (t : Timestamp) : Timestamp.read? (t.text 'T') = some t := by
  have date := scanDate?_text t.date ('T' :: t.time.text)
  have time := scanTime?_text t.time stops_nil
  rw [List.append_nil] at time
  simp only [Timestamp.read?, Timestamp.text, date, time,
    scanMark?_cons (show Text.isBlank 'T' = false by decide), Option.bind_eq_bind, Option.bind_some,
    finish?_nil]

theorem Timestamp.toUtc?_zero (t : Timestamp) : t.toUtc? 0 = some t := by
  have hour := t.time.hour_lt
  have minute := t.time.minute_lt
  have inDay : (((t.time.hour * 60 + t.time.minute : Nat) : Int) - 0) % 1440 =
      (t.time.hour * 60 + t.time.minute : Nat) := by omega
  have notBefore : ¬ ((t.time.hour * 60 + t.time.minute : Nat) : Int) - 0 < 0 := by omega
  have notAfter : ¬ (1440 : Int) ≤ ((t.time.hour * 60 + t.time.minute : Nat) : Int) - 0 := by omega
  have hours : (t.time.hour * 60 + t.time.minute) / 60 = t.time.hour := by omega
  have minutes : (t.time.hour * 60 + t.time.minute) % 60 = t.time.minute := by omega
  unfold toUtc?
  simp only [inDay, notBefore, notAfter, if_false, Int.toNat_natCast, hours, minutes, timeOf?_self]

theorem Timestamp.readUtc?_utcText (t : Timestamp) : Timestamp.readUtc? t.utcText = some t := by
  have stop : Stops ['Z'] := by
    intro c hc
    obtain rfl : 'Z' = c := by simpa using hc
    decide
  have text : t.utcText = t.date.text ++ 'T' :: (t.time.text ++ ['Z']) := by
    simp [Timestamp.utcText, Timestamp.text]
  have offset : scanOffset? ['Z'] = some (0, []) := by decide
  rw [text]
  simp only [Timestamp.readUtc?, Timestamp.readUtc?.separator?, scanDate?_text,
    scanTime?_text t.time stop, offset, Option.bind_eq_bind, Option.bind_some]
  exact t.toUtc?_zero

end DraftLedger
