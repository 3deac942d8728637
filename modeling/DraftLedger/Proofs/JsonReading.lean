import DraftLedger.Proofs.Documents

/-!
# What is written can be read

The text of a tree is read if its numerals follow the grammar of JSON: no zero stands in front of a
whole part, and no exponent is without digits.

* `Numeral.Grammatical` : the numerals.
* `Json.Readable` : the trees.
* `Json.scan?_text_of_readable` : the front of a text, by induction on the tree.
* `Json.read?_render_of_readable` : the whole text.
-/

set_option autoImplicit false

namespace DraftLedger

/-! ## Numerals -/

theorem Text.decimal_leading {n : Nat} {ds : List Char} (h : Text.decimal n = '0' :: ds) :
    ds = [] := by
  induction n using Nat.strongRecOn generalizing ds with
  | _ n ih =>
    rw [Text.decimal, Nat.toDigits_eq_if (by decide)] at h
    split at h
    · exact (List.cons.inj h).2.symm
    · next large =>
      obtain ⟨c, cs, eq⟩ := List.exists_cons_of_ne_nil (Text.decimal_ne_nil (n / 10))
      have shorter : Text.decimal (n / 10) ++ [(n % 10).digitChar] = '0' :: ds := h
      rw [eq, List.cons_append] at shorter
      obtain ⟨rfl, -⟩ := List.cons.inj shorter
      have zero := ih (n / 10) (by omega) eq
      have value := Text.ofDecimal_decimal (n / 10)
      rw [eq, zero] at value
      have nothing : Text.ofDecimal ['0'] = 0 := by decide
      omega

namespace Numeral

/-- The numeral follows the grammar of JSON. -/
structure Grammatical (n : Numeral) : Prop extends n.Digital where
  leading : ∀ ds, n.whole = '0' :: ds → ds = []
  power : ∀ e ∈ n.exponent, e.digits ≠ []

variable {n n' : Numeral} {rest : List Char}

theorem scanWhole?_grammatical (h : n.Grammatical) (stop : Ends rest) :
    scanWhole? (n.whole ++ (n.tailText ++ rest)) = some (n.whole, n.tailText ++ rest) := by
  rw [scanWhole?, scanDigits_append h.whole (tailText_noDigit n stop)]
  split
  · next same => exact absurd (congrArg Prod.fst same) h.nonempty
  · next same =>
    have one := h.leading _ (congrArg Prod.fst same)
    cases one
  · next same =>
    cases same
    rfl

theorem scanFraction?_grammatical (h : n.Grammatical) (stop : Ends rest) :
    scanFraction? (n.tailText ++ rest) =
      some (n.fraction, exponentText ['+'] n.exponent ++ rest) := by
  unfold tailText
  by_cases none' : n.fraction = []
  · -- What follows the whole digits is the exponent or the rest, and no point.
    have noPoint : ∀ c ∈ (exponentText ['+'] n.exponent ++ rest).head?, c ≠ '.' := by
      cases n.exponent with
      | none => exact fun c hc => (stop c hc).2.1
      | some e =>
        intro c hc
        obtain rfl : 'e' = c := by simpa [exponentText] using hc
        decide
    rw [if_pos none', List.nil_append, none', scanFraction?]
    intro cs eq
    exact absurd rfl (noPoint '.' (by rw [eq]; rfl))
  · rw [if_neg none', List.cons_append, List.cons_append, scanFraction?, List.append_assoc,
      scanDigits_append h.fraction (exponentText_noDigit n.exponent stop)]
    split
    · next same => exact absurd (congrArg Prod.fst same) none'
    · next same =>
      cases same
      rfl

theorem scanExponent?_grammatical (h : n.Grammatical) (stop : Ends rest) :
    scanExponent? (exponentText ['+'] n.exponent ++ rest) = some (n.exponent, rest) := by
  cases he : n.exponent with
  | none =>
    rw [exponentText, List.nil_append]
    cases rest with
    | nil => rfl
    | cons c cs =>
      have mark := (stop c rfl).2.2
      simp only [scanExponent?, mark.1, mark.2, or_self, if_false]
  | some e =>
    have digits := h.exponent e he
    have stop : NoDigit rest := fun c hc => (stop c hc).1
    have scanned : scanExponentSign ((if e.negative then ['-'] else ['+']) ++ e.digits ++ rest) =
        (e.negative, e.digits ++ rest) := by
      cases e.negative <;> simp [scanExponentSign]
    rw [exponentText, List.cons_append, scanExponent?]
    simp only [true_or, if_true, scanned, scanDigits_append digits stop]
    split
    · next same => exact absurd (congrArg Prod.fst same) (h.power e he)
    · next same =>
      cases same
      rfl

theorem scan?_text_of_grammatical (h : n.Grammatical) (stop : Ends rest) :
    scan? (n.text ['+'] ++ rest) = some (n, rest) := by
  unfold scan?
  simp only [scanMinus_text h.toDigital, scanWhole?_grammatical h stop,
    scanFraction?_grammatical h stop, scanExponent?_grammatical h stop, Option.bind_eq_bind,
    Option.bind_some]

theorem ends_nil : Ends [] := fun c hc => by cases hc

/-- A numeral whose text is read as any numeral follows the grammar, and is that numeral. -/
theorem grammatical_of_ofText? (h : n.Digital) (read : ofText? (n.text ['+']) = some n') :
    n' = n ∧ n.Grammatical := by
  unfold ofText? at read
  split at read
  case h_2 => cases read
  next scanned =>
  cases read
  rw [← List.append_nil (n.text ['+'])] at scanned
  have same := (scan?_text h ends_nil scanned).1
  unfold scan? at scanned
  simp only [scanMinus_text h, Option.bind_eq_bind, Option.bind_eq_some_iff, Prod.exists] at scanned
  obtain ⟨whole, left, hw, fraction, left', hf, exponent, left'', he, -⟩ := scanned
  refine ⟨same, h, fun ds zero => ?_, fun e mem empty => ?_⟩
  · rw [scanWhole?, scanDigits_append h.whole (tailText_noDigit n ends_nil), zero] at hw
    cases ds with
    | nil => rfl
    | cons d ds => simp at hw
  · obtain ⟨rfl, rfl⟩ := scanWhole?_text h ends_nil hw
    obtain ⟨rfl, rfl⟩ := scanFraction?_text h ends_nil hf
    have sign : scanExponentSign (if e.negative then ['-'] else ['+']) = (e.negative, []) := by
      cases e.negative <;> rfl
    rw [Option.mem_def.1 mem] at he
    simp [exponentText, empty, scanExponent?, sign, scanDigits] at he

theorem grammatical_ofInt (n : Int) : (ofInt n).Grammatical where
  toDigital := digital_ofInt n
  leading _ h := Text.decimal_leading h
  power _ h := by cases h

end Numeral

/-! ## Trees -/

namespace Json

mutual

/-- Numerals follow the grammar, and strings are legible. -/
def Readable : Json → Prop
  | .number n => n.Grammatical
  | .array items => ItemsReadable items
  | .object members => MembersReadable members
  | .illegible => False
  | _ => True

/-- Every item is readable. -/
def ItemsReadable : List Json → Prop
  | [] => True
  | item :: rest => item.Readable ∧ ItemsReadable rest

/-- The value of every member is readable. -/
def MembersReadable : List (String × Json) → Prop
  | [] => True
  | (_, value) :: rest => value.Readable ∧ MembersReadable rest

end

theorem itemsReadable_iff {items : List Json} :
    ItemsReadable items ↔ ∀ j ∈ items, j.Readable := by
  induction items with
  | nil => simp [ItemsReadable]
  | cons item rest ih => simp [ItemsReadable, ih]

theorem membersReadable_iff {members : List (String × Json)} :
    MembersReadable members ↔ ∀ m ∈ members, m.2.Readable := by
  induction members with
  | nil => simp [MembersReadable]
  | cons member rest ih =>
    obtain ⟨key, value⟩ := member
    simp [MembersReadable, ih]

mutual

theorem Readable.plain {j : Json} (h : j.Readable) : j.Plain := by
  match j with
  | .null | .bool _ | .string _ => trivial
  | .number n => exact Numeral.Grammatical.toDigital h
  | .array items => exact ItemsReadable.plain h
  | .object members => exact MembersReadable.plain h

theorem ItemsReadable.plain {items : List Json} (h : ItemsReadable items) : ItemsPlain items := by
  match items with
  | [] => trivial
  | item :: rest => exact ⟨Readable.plain h.1, ItemsReadable.plain h.2⟩

theorem MembersReadable.plain {members : List (String × Json)} (h : MembersReadable members) :
    MembersPlain members := by
  match members with
  | [] => trivial
  | (_, value) :: rest => exact ⟨Readable.plain h.1, MembersReadable.plain h.2⟩

end

theorem ofInt_readable (n : Int) : (ofInt n).Readable := Numeral.grammatical_ofInt n

theorem ofNat_readable (n : Nat) : (ofNat n).Readable := Numeral.grammatical_ofInt n

theorem text_ne_nil {j : Json} (h : j.Plain) : 0 < j.text.length := by
  obtain ⟨c, cs, eq, -⟩ := text_head h
  simp [eq]

/-- The fuel of a reader is twice the length of what it is to read, so that it lasts for one call
more than there are characters on every level. -/
theorem fuel_succ {fuel n : Nat} (enough : 2 * n ≤ fuel) (positive : 0 < n) :
    ∃ fuel', fuel = fuel' + 1 := ⟨fuel - 1, by omega⟩

mutual

/-- The text of a readable tree is read as that tree, and the rest is left. -/
theorem scan?_text_of_readable {j : Json} {fuel : Nat} {rest : List Char} (h : j.Readable)
    (stop : Numeral.Ends rest) (enough : 2 * j.text.length ≤ fuel) :
    scan? fuel (j.text ++ rest) = some (j, rest) := by
  obtain ⟨fuel, rfl⟩ := fuel_succ enough (text_ne_nil h.plain)
  match j with
  | .null => simp [text, scan?, skipSpace_cons, isSpace]
  | .bool true => simp [text, scan?, skipSpace_cons, isSpace]
  | .bool false => simp [text, scan?, skipSpace_cons, isSpace]
  | .number n =>
    have grammatical : n.Grammatical := h
    obtain ⟨c, cs, eq, head⟩ := Numeral.text_head grammatical.toDigital
    have scanned := Numeral.scan?_text_of_grammatical grammatical stop
    rw [eq, List.cons_append] at scanned
    rw [text, eq, List.cons_append, scan?_numeral head, scanned, Option.map_some]
  | .string s =>
    obtain ⟨inner, eq, scanned⟩ := scanString?_stringText s rest
    rw [text, eq, scan?, skipSpace_cons (by decide)]
    simp only [scanned, ofChars, String.ofList_toList]
  | .array [] => simp [text, itemsText, scan?, skipSpace_cons, isSpace]
  | .array (item :: items) =>
    obtain ⟨c, cs, eq, space, bracket⟩ := itemsText_head (Readable.plain h.1) items
    have enough' : 2 * (itemsText (item :: items)).length + 1 ≤ fuel := by
      simp only [text, List.length_cons] at enough
      omega
    have read : scanItems? fuel (itemsText (item :: items) ++ rest) = some (item :: items, rest) :=
      scanItems?_text_of_readable h enough'
    rw [eq, List.cons_append] at read
    rw [text, List.cons_append, scan?, skipSpace_cons (by decide)]
    simp only [eq, List.cons_append, skipSpace_cons space]
    split
    · next same => exact absurd (List.cons.inj same).1 bracket
    · rw [read]
  | .object [] => simp [text, membersText, scan?, skipSpace_cons, isSpace]
  | .object ((key, value) :: members) =>
    obtain ⟨inner, eq⟩ := membersText_head key value members
    have enough' : 2 * (membersText ((key, value) :: members)).length + 1 ≤ fuel := by
      simp only [text, List.length_cons] at enough
      omega
    have read : scanMembers? fuel (membersText ((key, value) :: members) ++ rest) =
        some (some ((key, value) :: members), rest) := scanMembers?_text_of_readable h enough'
    rw [eq, List.cons_append] at read
    rw [text, List.cons_append, scan?, skipSpace_cons (by decide)]
    simp only [eq, List.cons_append, skipSpace_cons (show isSpace '"' = false by decide)]
    split
    · next same => cases same
    · simp only [read, ofMembers]
  | .illegible => exact h.elim
termination_by fuel

theorem scanItems?_text_of_readable {item : Json} {items : List Json} {fuel : Nat}
    {rest : List Char} (h : ItemsReadable (item :: items))
    (enough : 2 * (itemsText (item :: items)).length + 1 ≤ fuel) :
    scanItems? fuel (itemsText (item :: items) ++ rest) = some (item :: items, rest) := by
  obtain ⟨fuel, rfl⟩ : ∃ fuel', fuel = fuel' + 1 := ⟨fuel - 1, by omega⟩
  match items with
  | [] =>
    have first : 2 * item.text.length ≤ fuel := by
      simp only [itemsText, List.length_append, List.length_cons] at enough
      omega
    have read : scan? fuel (item.text ++ ']' :: rest) = some (item, ']' :: rest) :=
      scan?_text_of_readable h.1 (ends_cons (by simp)) first
    rw [itemsText, List.append_assoc, scanItems?]
    simp only [List.cons_append, List.nil_append, read,
      skipSpace_cons (show isSpace ']' = false by decide)]
  | next :: items =>
    have text : itemsText (item :: next :: items) =
        item.text ++ ',' :: itemsText (next :: items) := by
      rw [itemsText]
      simp
    rw [text, List.length_append, List.length_cons] at enough
    have first : 2 * item.text.length ≤ fuel := by omega
    have others : 2 * (itemsText (next :: items)).length + 1 ≤ fuel := by omega
    have read : scan? fuel (item.text ++ ',' :: (itemsText (next :: items) ++ rest)) =
        some (item, ',' :: (itemsText (next :: items) ++ rest)) :=
      scan?_text_of_readable h.1 (ends_cons (by simp)) first
    have further : scanItems? fuel (itemsText (next :: items) ++ rest) =
        some (next :: items, rest) := scanItems?_text_of_readable h.2 others
    rw [text, List.append_assoc, scanItems?]
    simp only [List.cons_append, read, skipSpace_cons (show isSpace ',' = false by decide), further]
termination_by fuel

theorem scanMembers?_text_of_readable {key : String} {value : Json}
    {members : List (String × Json)} {fuel : Nat} {rest : List Char}
    (h : MembersReadable ((key, value) :: members))
    (enough : 2 * (membersText ((key, value) :: members)).length + 1 ≤ fuel) :
    scanMembers? fuel (membersText ((key, value) :: members) ++ rest) =
      some (some ((key, value) :: members), rest) := by
  obtain ⟨fuel, rfl⟩ : ∃ fuel', fuel = fuel' + 1 := ⟨fuel - 1, by omega⟩
  match members with
  | [] =>
    have first : 2 * value.text.length ≤ fuel := by
      simp only [membersText, List.length_append, List.length_cons] at enough
      omega
    obtain ⟨inner, eq, scanned⟩ :=
      scanString?_stringText key (':' :: (value.text ++ '\x7d' :: rest))
    have whole : membersText [(key, value)] ++ rest = '"' :: inner := by
      rw [← eq, membersText]
      simp
    have read : scan? fuel (value.text ++ '\x7d' :: rest) = some (value, '\x7d' :: rest) :=
      scan?_text_of_readable h.1 (ends_cons (by simp)) first
    rw [whole, scanMembers?, skipSpace_cons (by decide)]
    simp only [scanned, skipSpace_cons (show isSpace ':' = false by decide), read,
      skipSpace_cons (show isSpace '\x7d' = false by decide), withMember, String.ofList_toList]
  | (key', next) :: members =>
    have text : membersText ((key, value) :: (key', next) :: members) =
        stringText key ++ ':' :: value.text ++ ',' :: membersText ((key', next) :: members) := by
      rw [membersText]
      simp
    rw [text] at enough
    simp only [List.length_append, List.length_cons] at enough
    have first : 2 * value.text.length ≤ fuel := by omega
    have others : 2 * (membersText ((key', next) :: members)).length + 1 ≤ fuel := by omega
    obtain ⟨inner, eq, scanned⟩ := scanString?_stringText key
      (':' :: (value.text ++ ',' :: (membersText ((key', next) :: members) ++ rest)))
    have whole : membersText ((key, value) :: (key', next) :: members) ++ rest =
        '"' :: inner := by
      rw [← eq, text]
      simp
    have read : scan? fuel (value.text ++ ',' :: (membersText ((key', next) :: members) ++ rest)) =
        some (value, ',' :: (membersText ((key', next) :: members) ++ rest)) :=
      scan?_text_of_readable h.1 (ends_cons (by simp)) first
    have further : scanMembers? fuel (membersText ((key', next) :: members) ++ rest) =
        some (some ((key', next) :: members), rest) := scanMembers?_text_of_readable h.2 others
    rw [whole, scanMembers?, skipSpace_cons (by decide)]
    simp only [scanned, skipSpace_cons (show isSpace ':' = false by decide), read,
      skipSpace_cons (show isSpace ',' = false by decide), further, withMember,
      String.ofList_toList]
termination_by fuel

end

theorem read?_render_of_readable {j : Json} (h : j.Readable) : read? j.render = some j := by
  have read : scan? (2 * j.text.length + 2) (j.text ++ []) = some (j, []) :=
    scan?_text_of_readable h Numeral.ends_nil (by omega)
  rw [List.append_nil] at read
  unfold read? ofText? render
  rw [String.toList_ofList, read]
  rfl

end Json

end DraftLedger
