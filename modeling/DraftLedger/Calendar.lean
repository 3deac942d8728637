import DraftLedger.Text.Blank
import DraftLedger.Text.Digits

/-!
# Dates and times of day

Days of the proleptic Gregorian calendar in a range of about 262000 years around the year 0, and
times of day to the nanosecond, where a minute may have a sixty-first second.

* `Date`, `TimeOfDay`, `Timestamp` : the values.
* `Date.text`, `TimeOfDay.text`, `Timestamp.text` : how they are written.
* `Date.read?`, `TimeOfDay.read?`, `Timestamp.read?` : how they are read, with blanks allowed
  between the parts.
* `Timestamp.readUtc?` : a timestamp with an offset, taken to universal time.
-/

set_option autoImplicit false

namespace DraftLedger

/-! ## Values -/

/-- Whether the year has a 29th of February. -/
def isLeapYear (year : Int) : Bool := year % 4 = 0 && (year % 100 ≠ 0 || year % 400 = 0)

/-- The number of days of a month, zero when there is no such month. -/
def daysInMonth (year : Int) (month : Nat) : Nat :=
  match month with
  | 1 | 3 | 5 | 7 | 8 | 10 | 12 => 31
  | 4 | 6 | 9 | 11 => 30
  | 2 => if isLeapYear year then 29 else 28
  | _ => 0

/-- The first year of the calendar. -/
def firstYear : Int := -262143

/-- The last year of the calendar. -/
def lastYear : Int := 262142

/-- A day of the calendar. -/
structure Date where
  year : Int
  month : Nat
  day : Nat
  year_mem : firstYear ≤ year ∧ year ≤ lastYear
  day_mem : 1 ≤ day ∧ day ≤ daysInMonth year month
deriving DecidableEq

/-- A time of day; second 60 is a leap second. -/
structure TimeOfDay where
  hour : Nat
  minute : Nat
  second : Nat
  nanosecond : Nat
  hour_lt : hour < 24
  minute_lt : minute < 60
  second_lt : second < 61
  nanosecond_lt : nanosecond < 1000000000
deriving DecidableEq

/-- A day and a time of that day. -/
structure Timestamp where
  date : Date
  time : TimeOfDay
deriving DecidableEq

/-- The day with this year, month and day, if the calendar has it. -/
def Date.of? (year : Int) (month day : Nat) : Option Date :=
  if h : (firstYear ≤ year ∧ year ≤ lastYear) ∧ 1 ≤ day ∧ day ≤ daysInMonth year month then
    some ⟨year, month, day, h.1, h.2⟩
  else none

def TimeOfDay.of? (hour minute second nanosecond : Nat) : Option TimeOfDay :=
  if h : hour < 24 ∧ minute < 60 ∧ second < 61 ∧ nanosecond < 1000000000 then
    some ⟨hour, minute, second, nanosecond, h.1, h.2.1, h.2.2.1, h.2.2.2⟩
  else none

def Date.next? (d : Date) : Option Date :=
  (Date.of? d.year d.month (d.day + 1)).or
    ((Date.of? d.year (d.month + 1) 1).or (Date.of? (d.year + 1) 1 1))

def Date.previous? (d : Date) : Option Date :=
  if d.day = 1 then
    if d.month = 1 then Date.of? (d.year - 1) 12 31
    else Date.of? d.year (d.month - 1) (daysInMonth d.year (d.month - 1))
  else Date.of? d.year d.month (d.day - 1)

/-! ## Writing -/

/-- Four digits for the years 0 to 9999; other years with a sign and at least four digits. -/
def yearText (year : Int) : List Char :=
  if 0 ≤ year ∧ year ≤ 9999 then Text.padded 4 year.toNat
  else (if year < 0 then '-' else '+') :: Text.padded 4 year.natAbs

/-- A date as year, month and day with hyphens. -/
def Date.text (d : Date) : List Char :=
  yearText d.year ++ '-' :: Text.padded 2 d.month ++ '-' :: Text.padded 2 d.day

/-- A fraction of a second with its point, in three, six or nine digits, as few as are exact, and
nothing when it is zero. -/
def fractionText (nanosecond : Nat) : List Char :=
  if nanosecond = 0 then []
  else if nanosecond % 1000000 = 0 then '.' :: Text.padded 3 (nanosecond / 1000000)
  else if nanosecond % 1000 = 0 then '.' :: Text.padded 6 (nanosecond / 1000)
  else '.' :: Text.padded 9 nanosecond

/-- A time as hours, minutes and seconds with colons, and the fraction. -/
def TimeOfDay.text (t : TimeOfDay) : List Char :=
  Text.padded 2 t.hour ++ ':' :: Text.padded 2 t.minute ++ ':' :: Text.padded 2 t.second ++
    fractionText t.nanosecond

/-- Date and time with a separator between them. -/
def Timestamp.text (separator : Char) (t : Timestamp) : List Char :=
  t.date.text ++ separator :: t.time.text

/-- A timestamp in universal time, marked as such. -/
def Timestamp.utcText (t : Timestamp) : List Char := t.text 'T' ++ ['Z']

/-! ## Reading

Blanks may stand before every number and before every hyphen and colon. -/

namespace Calendar

/-- At most `width` digits, at least one. -/
def scanNumber? (width : Nat) (cs : List Char) : Option (Nat × List Char) :=
  match (cs.take width).takeWhile Char.isDigit with
  | [] => none
  | ds => some (Text.ofDecimal ds, cs.drop ds.length)

/-- A number of one or two digits after blanks. -/
def scanPair? (cs : List Char) : Option (Nat × List Char) := scanNumber? 2 (Text.dropBlanks cs)

/-- This character, after blanks. -/
def scanMark? (mark : Char) (cs : List Char) : Option (List Char) :=
  match Text.dropBlanks cs with
  | [] => none
  | c :: rest => if c = mark then some rest else none

/-- A year after blanks: any number of digits after a sign, else at most four. -/
def scanYear? (cs : List Char) : Option (Int × List Char) :=
  match Text.dropBlanks cs with
  | '-' :: rest => (scanNumber? rest.length rest).map fun r => (-(r.1 : Int), r.2)
  | '+' :: rest => (scanNumber? rest.length rest).map fun r => ((r.1 : Int), r.2)
  | rest => (scanNumber? 4 rest).map fun r => ((r.1 : Int), r.2)

/-- Year, month and day with hyphens. -/
def scanDate? (cs : List Char) : Option (Date × List Char) := do
  let (year, cs) ← scanYear? cs
  let cs ← scanMark? '-' cs
  let (month, cs) ← scanPair? cs
  let cs ← scanMark? '-' cs
  let (day, cs) ← scanPair? cs
  let date ← Date.of? year month day
  some (date, cs)

/-- A fraction of a second, if a point follows directly: digits after the ninth do not count. -/
def scanFraction? : List Char → Option (Nat × List Char)
  | '.' :: cs =>
    match (cs.take 9).takeWhile Char.isDigit with
    | [] => none
    | ds => some (Text.ofDecimal ds * Nat.pow 10 (9 - ds.length), cs.dropWhile Char.isDigit)
  | cs => some (0, cs)

/-- A colon, seconds, and a fraction. -/
def scanSeconds? (cs : List Char) : Option ((Nat × Nat) × List Char) := do
  let cs ← scanMark? ':' cs
  let (second, cs) ← scanPair? cs
  let (nanosecond, cs) ← scanFraction? cs
  if second < 61 then some ((second, nanosecond), cs) else none

/-- Hours and minutes with a colon. -/
def scanMinutes? (cs : List Char) : Option ((Nat × Nat) × List Char) := do
  let (hour, cs) ← scanPair? cs
  let cs ← scanMark? ':' cs
  let (minute, cs) ← scanPair? cs
  some ((hour, minute), cs)

def scanTime? (cs : List Char) : Option (TimeOfDay × List Char) := do
  let ((hour, minute), cs) ← scanMinutes? cs
  let ((second, nanosecond), cs) ← scanSeconds? cs
  let time ← TimeOfDay.of? hour minute second nanosecond
  some (time, cs)

def finish? {α : Type} : Option (α × List Char) → Option α
  | some (a, rest) => if Text.dropBlanks rest = [] then some a else none
  | none => none

def scanTwoDigits? : List Char → Option (Nat × List Char)
  | a :: b :: rest => if a.isDigit && b.isDigit then some (Text.ofDecimal [a, b], rest) else none
  | _ => none

/-- An offset from universal time in minutes: `Z` or `UTC` of any case, or a sign, two digits of
hours and two of minutes below sixty, with any colons and blanks between them. It is less than a
day. -/
def scanOffset? (cs : List Char) : Option (Int × List Char) :=
  match Text.dropBlanks cs with
  | [] => none
  | c :: rest =>
    if Text.lowerAscii (c :: rest.take 2) = ['u', 't', 'c'] then some (0, rest.drop 2)
    else if c = 'Z' ∨ c = 'z' then some (0, rest)
    else if c = '+' then (magnitude? rest).map fun r => ((r.1 : Int), r.2)
    else if c = '-' ∨ c = '\u2212' then (magnitude? rest).map fun r => (-(r.1 : Int), r.2)
    else none
where
  magnitude? (cs : List Char) : Option (Nat × List Char) := do
    let (hours, cs) ← scanTwoDigits? cs
    let (minutes, cs) ← scanTwoDigits? (cs.dropWhile fun c => c = ':' || Text.isBlank c)
    if minutes < 60 ∧ hours * 60 + minutes < 1440 then some (hours * 60 + minutes, cs) else none

end Calendar

def Date.read? (cs : List Char) : Option Date := Calendar.finish? (Calendar.scanDate? cs)

/-- The time that makes up a text; the seconds may be missing. -/
def TimeOfDay.read? (cs : List Char) : Option TimeOfDay :=
  match Calendar.scanMinutes? cs with
  | none => none
  | some ((hour, minute), rest) =>
    let ((second, nanosecond), rest) := (Calendar.scanSeconds? rest).getD ((0, 0), rest)
    Calendar.finish? ((TimeOfDay.of? hour minute second nanosecond).map fun t => (t, rest))

/-- The timestamp that makes up a text: date, `T`, time. -/
def Timestamp.read? (cs : List Char) : Option Timestamp :=
  Calendar.finish? do
    let (date, cs) ← Calendar.scanDate? cs
    let cs ← Calendar.scanMark? 'T' cs
    let (time, cs) ← Calendar.scanTime? cs
    some (⟨date, time⟩, cs)

/-- A local timestamp taken to universal time, if the calendar has the day. -/
def Timestamp.toUtc? (t : Timestamp) (offsetMinutes : Int) : Option Timestamp :=
  let minutes : Int := (t.time.hour * 60 + t.time.minute : Nat) - offsetMinutes
  let inDay := (minutes % 1440).toNat
  let date? :=
    if minutes < 0 then t.date.previous? else if 1440 ≤ minutes then t.date.next? else some t.date
  match date?, TimeOfDay.of? (inDay / 60) (inDay % 60) t.time.second t.time.nanosecond with
  | some date, some time => some ⟨date, time⟩
  | _, _ => none

/-- The timestamp with an offset that makes up a text, in universal time: date, `T`, `t` or one
blank U+0020, time, offset. -/
def Timestamp.readUtc? (cs : List Char) : Option Timestamp := do
  let (date, cs) ← Calendar.scanDate? cs
  let cs ← separator? cs
  let (time, cs) ← Calendar.scanTime? cs
  let (offset, cs) ← Calendar.scanOffset? cs
  if Text.dropBlanks cs = [] then (Timestamp.mk date time).toUtc? offset else none
where
  separator? : List Char → Option (List Char)
    | 'T' :: cs => some cs
    | 't' :: cs => some cs
    | ' ' :: cs => some cs
    | _ => none

end DraftLedger
