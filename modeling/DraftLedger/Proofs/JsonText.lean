import DraftLedger.Json

/-!
# Reading what was written

A text that was written from a tree is read as that tree or not at all.

* `Numeral.Digital` : a numeral that is made of digits.
* `Json.Plain` : a tree of such numerals in which every string is legible.
* `Json.scan?_text` : what the front of a text is read as, by induction on the tree.
* `Json.read?_render` : what the whole text is read as.
-/

set_option autoImplicit false

namespace DraftLedger

/-! ## Numerals -/

namespace Numeral

/-- The parts of the numeral are digits, and there are some in the whole part and in an exponent. -/
structure Digital (n : Numeral) : Prop where
  nonempty : n.whole ≠ []
  whole : ∀ c ∈ n.whole, c.isDigit = true
  fraction : ∀ c ∈ n.fraction, c.isDigit = true
  exponent : ∀ e ∈ n.exponent, ∀ c ∈ e.digits, c.isDigit = true
  exponentNonempty : ∀ e ∈ n.exponent, e.digits ≠ []

/-- A numeral ends before this text: it neither starts with a digit nor with what may follow the
digits of a numeral. -/
def Ends (rest : List Char) : Prop :=
  ∀ c ∈ rest.head?, c.isDigit = false ∧ c ≠ '.' ∧ c ≠ 'e' ∧ c ≠ 'E'

/-- A text that does not start with a digit. -/
def NoDigit (rest : List Char) : Prop := ∀ c ∈ rest.head?, c.isDigit = false

theorem noDigit_cons {c : Char} {cs : List Char} (h : c.isDigit = false) : NoDigit (c :: cs) :=
  fun d hd => by
    obtain rfl : c = d := by simpa using hd
    exact h

theorem scanDigits_append {ds rest : List Char} (digits : ∀ c ∈ ds, c.isDigit = true)
    (stop : NoDigit rest) : scanDigits (ds ++ rest) = (ds, rest) := by
  have none' : rest.takeWhile Char.isDigit = [] ∧ rest.dropWhile Char.isDigit = rest := by
    cases rest with
    | nil => exact ⟨rfl, rfl⟩
    | cons c cs => simp [stop c rfl]
  rw [scanDigits, List.takeWhile_append_of_pos digits, List.dropWhile_append_of_pos digits,
    none'.1, none'.2, List.append_nil]

variable {n n' : Numeral} {rest rest' : List Char}

/-- The part of a numeral that follows its whole digits. -/
def tailText (n : Numeral) : List Char :=
  (if n.fraction = [] then [] else '.' :: n.fraction) ++ exponentText ['+'] n.exponent

theorem text_eq (n : Numeral) :
    n.text ['+'] = (if n.negative then ['-'] else []) ++ (n.whole ++ n.tailText) := by
  simp [text, tailText]

theorem exponentText_noDigit (e : Option Exponent) (stop : Ends rest) :
    NoDigit (exponentText ['+'] e ++ rest) := by
  cases e with
  | none => exact fun c hc => (stop c hc).1
  | some e => exact noDigit_cons (by decide)

theorem tailText_noDigit (n : Numeral) (stop : Ends rest) : NoDigit (n.tailText ++ rest) := by
  unfold tailText
  split
  · exact exponentText_noDigit n.exponent stop
  · exact noDigit_cons (by decide)

theorem scanMinus_text (h : n.Digital) (rest : List Char) :
    scanMinus (n.text ['+'] ++ rest) = (n.negative, n.whole ++ (n.tailText ++ rest)) := by
  rw [text_eq]
  cases n.negative with
  | true => simp [scanMinus]
  | false =>
    obtain ⟨d, ds, eq⟩ := List.exists_cons_of_ne_nil h.nonempty
    have digit := h.whole d (eq ▸ List.mem_cons_self)
    have notMinus : d ≠ '-' := by
      rintro rfl
      revert digit
      decide
    simp [eq, scanMinus, notMinus]

theorem scanWhole?_text (h : n.Digital) (stop : Ends rest) {whole left : List Char}
    (hs : scanWhole? (n.whole ++ (n.tailText ++ rest)) = some (whole, left)) :
    whole = n.whole ∧ left = n.tailText ++ rest := by
  rw [scanWhole?, scanDigits_append h.whole (tailText_noDigit n stop)] at hs
  split at hs
  · cases hs
  · cases hs
  · next same =>
    cases same
    cases hs
    exact ⟨rfl, rfl⟩

theorem scanFraction?_text (h : n.Digital) (stop : Ends rest) {fraction left : List Char}
    (hs : scanFraction? (n.tailText ++ rest) = some (fraction, left)) :
    fraction = n.fraction ∧ left = exponentText ['+'] n.exponent ++ rest := by
  unfold tailText at hs
  by_cases none' : n.fraction = []
  · -- What follows the whole digits is the exponent or the rest, and no point.
    have noPoint : ∀ c ∈ (exponentText ['+'] n.exponent ++ rest).head?, c ≠ '.' := by
      cases n.exponent with
      | none => exact fun c hc => (stop c hc).2.1
      | some e =>
        intro c hc
        obtain rfl : 'e' = c := by simpa [exponentText] using hc
        decide
    rw [if_pos none', List.nil_append] at hs
    unfold scanFraction? at hs
    split at hs
    · next eq => exact absurd rfl (noPoint '.' (by rw [eq]; rfl))
    · cases hs
      exact ⟨none'.symm, rfl⟩
  · rw [if_neg none', List.cons_append, List.cons_append, scanFraction?, List.append_assoc,
      scanDigits_append h.fraction (exponentText_noDigit n.exponent stop)] at hs
    split at hs
    · next same => exact absurd (congrArg Prod.fst same) none'
    · next same =>
      cases same
      cases hs
      exact ⟨rfl, rfl⟩

theorem scanExponent?_text (h : n.Digital) (stop : Ends rest) {exponent : Option Exponent}
    {left : List Char}
    (hs : scanExponent? (exponentText ['+'] n.exponent ++ rest) = some (exponent, left)) :
    exponent = n.exponent ∧ left = rest := by
  cases he : n.exponent with
  | none =>
    rw [he, exponentText, List.nil_append] at hs
    cases rest with
    | nil => cases hs; exact ⟨rfl, rfl⟩
    | cons c cs =>
      have mark := (stop c rfl).2.2
      simp only [scanExponent?, mark.1, mark.2, or_self, if_false] at hs
      cases hs
      exact ⟨rfl, rfl⟩
  | some e =>
    have digits := h.exponent e he
    have stop : NoDigit rest := fun c hc => (stop c hc).1
    have scanned : scanExponentSign ((if e.negative then ['-'] else ['+']) ++ e.digits ++ rest) =
        (e.negative, e.digits ++ rest) := by
      cases e.negative <;> simp [scanExponentSign]
    rw [he, exponentText, List.cons_append, scanExponent?] at hs
    simp only [true_or, if_true, scanned, scanDigits_append digits stop] at hs
    split at hs
    · cases hs
    · next same =>
      cases same
      cases hs
      exact ⟨rfl, rfl⟩

/-- The text of a numeral is read as that numeral, if it is read. -/
theorem scan?_text (h : n.Digital) (stop : Ends rest)
    (hs : scan? (n.text ['+'] ++ rest) = some (n', rest')) : n' = n ∧ rest' = rest := by
  unfold scan? at hs
  simp only [scanMinus_text h, Option.bind_eq_bind, Option.bind_eq_some_iff, Prod.exists] at hs
  obtain ⟨whole, left, hw, fraction, left', hf, exponent, left'', he, eq⟩ := hs
  obtain ⟨rfl, rfl⟩ := scanWhole?_text h stop hw
  obtain ⟨rfl, rfl⟩ := scanFraction?_text h stop hf
  obtain ⟨rfl, rfl⟩ := scanExponent?_text h stop he
  cases eq
  exact ⟨rfl, rfl⟩

theorem text_head (h : n.Digital) :
    ∃ c cs, n.text ['+'] = c :: cs ∧ (c = '-' ∨ c.isDigit = true) := by
  rw [text_eq]
  cases n.negative with
  | true => exact ⟨'-', _, rfl, .inl rfl⟩
  | false =>
    obtain ⟨d, ds, eq⟩ := List.exists_cons_of_ne_nil h.nonempty
    exact ⟨d, ds ++ n.tailText, by simp [eq], .inr (h.whole d (eq ▸ List.mem_cons_self))⟩

end Numeral

namespace Json

/-! ## Strings -/

theorem scanString?_plain (seen : Option (List Char)) {c : Char} (rest : List Char)
    (quote : c ≠ '"') (backslash : c ≠ '\\') (printable : ¬ c.toNat < 0x20) :
    scanString? seen (c :: rest) = scanString? (seen.map (c :: ·)) rest := by
  have plain : ¬ (c.toNat < 0x20 || c = '\\') = true := by simp [printable, backslash]
  rw [scanString?, if_neg plain]
  · exact quote
  · rintro _ _ _ _ _ rfl
    exact absurd rfl backslash
  · rintro _ _ rfl
    exact absurd rfl backslash

theorem scanString?_escapedChar (seen : Option (List Char)) (c : Char) (rest : List Char) :
    scanString? seen (escapedChar c ++ rest) = scanString? (seen.map (c :: ·)) rest := by
  by_cases quote : c = '"'
  · subst quote; simp [escapedChar, scanString?, escape?]
  by_cases backslash : c = '\\'
  · subst backslash; simp [escapedChar, scanString?, escape?]
  by_cases backspace : c = '\x08'
  · subst backspace; simp [escapedChar, scanString?, escape?]
  by_cases formFeed : c = '\x0c'
  · subst formFeed; simp [escapedChar, scanString?, escape?]
  by_cases lineFeed : c = '\n'
  · subst lineFeed; simp [escapedChar, scanString?, escape?]
  by_cases return_ : c = '\r'
  · subst return_; simp [escapedChar, scanString?, escape?]
  by_cases tab : c = '\t'
  · subst tab; simp [escapedChar, scanString?, escape?]
  by_cases control : c.toNat < 0x20
  · -- Four hexadecimal digits, of which the first two are zeros, spell a control character.
    have unit : codeUnit? '0' '0' (Text.hexDigit (c.toNat / 16)) (Text.hexDigit (c.toNat % 16)) =
        some c.toNat := by
      have zero : Text.hexValue? '0' = some 0 := rfl
      simp only [codeUnit?, zero, Text.hexValue?_hexDigit _ (by omega : c.toNat / 16 < 16),
        Text.hexValue?_hexDigit _ (by omega : c.toNat % 16 < 16), Option.bind_eq_bind,
        Option.bind_some]
      congr 1
      omega
    have notLeading : isLeading c.toNat = false := by simp [isLeading]; omega
    have notTrailing : isTrailing c.toNat = false := by simp [isTrailing]; omega
    simp only [escapedChar, quote, backslash, backspace, formFeed, lineFeed, return_, tab, control,
      if_false, if_true, List.cons_append, List.nil_append]
    rw [scanString?, unit]
    simp only [notLeading, notTrailing, Bool.false_eq_true, if_false, Char.ofNat_toNat]
  · simp only [escapedChar, quote, backslash, backspace, formFeed, lineFeed, return_, tab, control,
      if_false, List.cons_append, List.nil_append]
    exact scanString?_plain seen rest quote backslash control

theorem scanString?_escaped (cs seen rest : List Char) :
    scanString? (some seen) (cs.flatMap escapedChar ++ '"' :: rest) =
      some (some (seen.reverse ++ cs), rest) := by
  induction cs generalizing seen with
  | nil => simp [scanString?]
  | cons c cs ih =>
    rw [List.flatMap_cons, List.append_assoc, scanString?_escapedChar, Option.map_some, ih]
    simp

theorem scanString?_stringText (s : String) (rest : List Char) :
    ∃ inner, stringText s ++ rest = '"' :: inner ∧
      scanString? (some []) inner = some (some s.toList, rest) := by
  refine ⟨s.toList.flatMap escapedChar ++ '"' :: rest, by simp [stringText], ?_⟩
  simpa using scanString?_escaped s.toList [] rest

/-! ## Trees -/

mutual

/-- Numerals are made of digits, and strings are legible. -/
def Plain : Json → Prop
  | .number n => n.Digital
  | .array items => ItemsPlain items
  | .object members => MembersPlain members
  | .illegible => False
  | _ => True

/-- Every item is plain. -/
def ItemsPlain : List Json → Prop
  | [] => True
  | item :: rest => item.Plain ∧ ItemsPlain rest

/-- The value of every member is plain. -/
def MembersPlain : List (String × Json) → Prop
  | [] => True
  | (_, value) :: rest => value.Plain ∧ MembersPlain rest

end

theorem skipSpace_cons {c : Char} {cs : List Char} (h : isSpace c = false) :
    skipSpace (c :: cs) = c :: cs := by
  simp [skipSpace, h]

/-- A sign or digit is no space, and nothing that a value other than a number starts with. -/
theorem numeral_head {c : Char} (h : c = '-' ∨ c.isDigit = true) :
    isSpace c = false ∧ c ≠ 'n' ∧ c ≠ 't' ∧ c ≠ 'f' ∧ c ≠ '"' ∧ c ≠ '[' ∧ c ≠ '\x7b' ∧ c ≠ ']' := by
  rcases h with rfl | h
  · decide
  · have other (d : Char) (hd : d.isDigit = false) : c ≠ d := by
      rintro rfl
      rw [h] at hd
      cases hd
    refine ⟨?_, other _ (by decide), other _ (by decide), other _ (by decide), other _ (by decide),
      other _ (by decide), other _ (by decide), other _ (by decide)⟩
    simp [isSpace, other ' ' (by decide), other '\n' (by decide), other '\t' (by decide),
      other '\r' (by decide)]

theorem scan?_numeral {fuel : Nat} {c : Char} {cs : List Char} (h : c = '-' ∨ c.isDigit = true) :
    scan? (fuel + 1) (c :: cs) = (Numeral.scan? (c :: cs)).map fun p => (.number p.1, p.2) := by
  obtain ⟨space, h1, h2, h3, h4, h5, h6, -⟩ := numeral_head h
  rw [scan?, skipSpace_cons space]
  split <;> simp_all
  cases Numeral.scan? (c :: cs) <;> rfl

theorem text_head {j : Json} (h : j.Plain) :
    ∃ c cs, j.text = c :: cs ∧ isSpace c = false ∧ c ≠ ']' := by
  cases j with
  | null => exact ⟨_, _, rfl, by decide, by decide⟩
  | bool b => cases b <;> exact ⟨_, _, rfl, by decide, by decide⟩
  | number n =>
    obtain ⟨c, cs, eq, head⟩ := Numeral.text_head h
    obtain ⟨space, -, -, -, -, -, -, bracket⟩ := numeral_head head
    exact ⟨c, cs, eq, space, bracket⟩
  | string s => exact ⟨_, _, rfl, by decide, by decide⟩
  | array items => exact ⟨_, _, rfl, by decide, by decide⟩
  | object members => exact ⟨_, _, rfl, by decide, by decide⟩
  | illegible => exact h.elim

theorem itemsText_head {item : Json} (h : item.Plain) (rest : List Json) :
    ∃ c cs, itemsText (item :: rest) = c :: cs ∧ isSpace c = false ∧ c ≠ ']' := by
  obtain ⟨c, cs, eq, head⟩ := text_head h
  cases rest with
  | nil => exact ⟨c, _, by rw [itemsText, eq]; rfl, head⟩
  | cons => exact ⟨c, _, by rw [itemsText, eq]; rfl; simp, head⟩

theorem membersText_head (key : String) (value : Json) (rest : List (String × Json)) :
    ∃ inner, membersText ((key, value) :: rest) = '"' :: inner := by
  cases rest with
  | nil => exact ⟨_, by rw [membersText]; rfl⟩
  | cons => exact ⟨_, by rw [membersText]; rfl; simp⟩

theorem ends_cons {c : Char} {cs : List Char} (h : c = ',' ∨ c = ']' ∨ c = '\x7d') :
    Numeral.Ends (c :: cs) := by
  intro d hd
  obtain rfl : c = d := by simpa using hd
  rcases h with rfl | rfl | rfl <;> decide

mutual

/-- A written tree is read as that tree, if it is read, and the rest is left. -/
theorem scan?_text {j j' : Json} {fuel : Nat} {rest rest' : List Char} (h : j.Plain)
    (stop : Numeral.Ends rest) (hs : scan? fuel (j.text ++ rest) = some (j', rest')) :
    j' = j ∧ rest' = rest := by
  cases fuel with
  | zero => simp [scan?] at hs
  | succ fuel =>
    match j with
    | .null =>
      simp [text, scan?, skipSpace_cons, isSpace] at hs
      exact ⟨hs.1.symm, hs.2.symm⟩
    | .bool true =>
      simp [text, scan?, skipSpace_cons, isSpace] at hs
      exact ⟨hs.1.symm, hs.2.symm⟩
    | .bool false =>
      simp [text, scan?, skipSpace_cons, isSpace] at hs
      exact ⟨hs.1.symm, hs.2.symm⟩
    | .number n =>
      obtain ⟨c, cs, eq, head⟩ := Numeral.text_head h
      rw [text, eq, List.cons_append, scan?_numeral head, ← List.cons_append, ← eq] at hs
      obtain ⟨⟨n', left⟩, hn, made⟩ := Option.map_eq_some_iff.1 hs
      obtain ⟨same, left_eq⟩ := Numeral.scan?_text h stop hn
      cases made
      exact ⟨congrArg Json.number same, left_eq⟩
    | .string s =>
      obtain ⟨inner, eq, scanned⟩ := scanString?_stringText s rest
      rw [text, eq, scan?, skipSpace_cons (by decide)] at hs
      simp only [scanned] at hs
      cases hs
      exact ⟨by simp [ofChars], rfl⟩
    | .array [] =>
      simp [text, itemsText, scan?, skipSpace_cons, isSpace] at hs
      exact ⟨hs.1.symm, hs.2.symm⟩
    | .array (item :: items) =>
      obtain ⟨c, cs, eq, space, bracket⟩ := itemsText_head h.1 items
      rw [text, List.cons_append, scan?, skipSpace_cons (by decide)] at hs
      simp only [eq, List.cons_append, skipSpace_cons space] at hs
      split at hs
      · next same => cases same; exact absurd rfl bracket
      · split at hs
        · cases hs
        · next items' left read =>
          rw [← List.cons_append, ← eq] at read
          obtain ⟨rfl, rfl⟩ := scanItems?_text h read
          cases hs
          exact ⟨rfl, rfl⟩
    | .object [] =>
      simp [text, membersText, scan?, skipSpace_cons, isSpace] at hs
      exact ⟨hs.1.symm, hs.2.symm⟩
    | .object ((key, value) :: members) =>
      obtain ⟨inner, eq⟩ := membersText_head key value members
      rw [text, List.cons_append, scan?, skipSpace_cons (by decide)] at hs
      simp only [eq, List.cons_append, skipSpace_cons (show isSpace '"' = false by decide)] at hs
      split at hs
      · next same => cases same
      · split at hs
        · cases hs
        · next members' left read =>
          rw [← List.cons_append, ← eq] at read
          obtain ⟨rfl, rfl⟩ := scanMembers?_text h read
          cases hs
          exact ⟨rfl, rfl⟩
    | .illegible => exact h.elim
termination_by fuel

theorem scanItems?_text {item : Json} {items items' : List Json} {fuel : Nat}
    {rest rest' : List Char} (h : ItemsPlain (item :: items))
    (hs : scanItems? fuel (itemsText (item :: items) ++ rest) = some (items', rest')) :
    items' = item :: items ∧ rest' = rest := by
  cases fuel with
  | zero => simp [scanItems?] at hs
  | succ fuel =>
    match items with
    | [] =>
      rw [itemsText, List.append_assoc, scanItems?] at hs
      split at hs
      · cases hs
      next item' left read =>
      obtain ⟨rfl, rfl⟩ := scan?_text h.1 (ends_cons (by simp)) read
      simp [skipSpace_cons, isSpace] at hs
      exact ⟨hs.1.symm, hs.2.symm⟩
    | next :: items =>
      rw [itemsText, List.append_assoc, scanItems?] at hs
      · split at hs
        · cases hs
        next item' left read =>
        obtain ⟨rfl, rfl⟩ := scan?_text h.1 (ends_cons (by simp)) read
        simp only [skipSpace_cons (show isSpace ',' = false by decide)] at hs
        split at hs
        · cases hs
        next items' left read =>
        obtain ⟨rfl, rfl⟩ := scanItems?_text h.2 read
        cases hs
        exact ⟨rfl, rfl⟩
      · simp
termination_by fuel

theorem scanMembers?_text {key : String} {value : Json} {members : List (String × Json)}
    {members' : Option (List (String × Json))} {fuel : Nat} {rest rest' : List Char}
    (h : MembersPlain ((key, value) :: members))
    (hs : scanMembers? fuel (membersText ((key, value) :: members) ++ rest) =
      some (members', rest')) :
    members' = some ((key, value) :: members) ∧ rest' = rest := by
  cases fuel with
  | zero => simp [scanMembers?] at hs
  | succ fuel =>
    match members with
    | [] =>
      obtain ⟨inner, eq, scanned⟩ :=
        scanString?_stringText key (':' :: (value.text ++ '\x7d' :: rest))
      have whole : membersText [(key, value)] ++ rest = '"' :: inner := by
        rw [← eq, membersText]
        simp
      rw [whole, scanMembers?, skipSpace_cons (by decide)] at hs
      simp only [scanned, skipSpace_cons (show isSpace ':' = false by decide)] at hs
      split at hs
      · cases hs
      next value' left read =>
      obtain ⟨rfl, rfl⟩ := scan?_text h.1 (ends_cons (by simp)) read
      simp only [skipSpace_cons (show isSpace '\x7d' = false by decide)] at hs
      cases hs
      exact ⟨by simp [withMember], rfl⟩
    | (key', next) :: members =>
      obtain ⟨inner, eq, scanned⟩ := scanString?_stringText key
        (':' :: (value.text ++ ',' :: (membersText ((key', next) :: members) ++ rest)))
      have whole : membersText ((key, value) :: (key', next) :: members) ++ rest =
          '"' :: inner := by
        rw [← eq, membersText]
        · simp
        · simp
      rw [whole, scanMembers?, skipSpace_cons (by decide)] at hs
      simp only [scanned, skipSpace_cons (show isSpace ':' = false by decide)] at hs
      split at hs
      · cases hs
      next value' left read =>
      obtain ⟨rfl, rfl⟩ := scan?_text h.1 (ends_cons (by simp)) read
      simp only [skipSpace_cons (show isSpace ',' = false by decide)] at hs
      split at hs
      · cases hs
      next members' left read =>
      obtain ⟨rfl, rfl⟩ := scanMembers?_text h.2 read
      cases hs
      exact ⟨by simp [withMember], rfl⟩
termination_by fuel

end

/-- A text written from a tree is read as that tree, if it is read. -/
theorem read?_render {j j' : Json} (h : j.Plain) (hr : read? j.render = some j') : j' = j := by
  unfold read? ofText? render at hr
  rw [String.toList_ofList] at hr
  split at hr
  · next tree rest scanned =>
    rw [← List.append_nil j.text] at scanned
    obtain ⟨rfl, rfl⟩ := scan?_text h (fun c hc => by simp at hc) scanned
    simpa [skipSpace] using hr.symm
  · cases hr

end Json

end DraftLedger
