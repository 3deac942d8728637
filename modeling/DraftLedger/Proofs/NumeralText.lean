import DraftLedger.Proofs.CellText
import DraftLedger.Proofs.ShortestDigits

/-!
# Texts tell numbers apart

Different numerals have different texts, and different numbers have different numerals: those of the
finite floating-point numbers since the fewest digits of a number lie in its own interval.  So different
JSON values have different texts.

* `Numeral.text_injective` : numerals by their texts.
* `Numeral.magnitude` : the magnitude of a numeral as an exact number.
* `Binary64.numeral_injective` : finite numbers by their numerals.
* `Json.Value.text_injective` : JSON values by their texts.
-/

set_option autoImplicit false

namespace DraftLedger

/-! ## Numerals by their texts -/

namespace Numeral

variable {n n' : Numeral} {plus : List Char}

theorem digits_append_inj {ds ds' rest rest' : List Char} (digits : ∀ c ∈ ds, c.isDigit = true)
    (digits' : ∀ c ∈ ds', c.isDigit = true) (stop : NoDigit rest) (stop' : NoDigit rest')
    (eq : ds ++ rest = ds' ++ rest') : ds = ds' ∧ rest = rest' := by
  have scanned := scanDigits_append digits stop
  rw [eq, scanDigits_append digits' stop'] at scanned
  exact ⟨(congrArg Prod.fst scanned).symm, (congrArg Prod.snd scanned).symm⟩

theorem head?_ne_hyphen {ds : List Char} (digits : ∀ c ∈ ds, c.isDigit = true) (nonempty : ds ≠ [])
    (rest : List Char) : (ds ++ rest).head? ≠ some '-' := by
  obtain ⟨d, ds, rfl⟩ := List.exists_cons_of_ne_nil nonempty
  intro head
  obtain rfl : d = '-' := Option.some.inj head
  have digit := digits '-' List.mem_cons_self
  revert digit
  decide

theorem signed_inj (sign : plus = [] ∨ plus = ['+']) {negative negative' : Bool}
    {cs cs' : List Char} (begins : cs.head? ≠ some '-') (begins' : cs'.head? ≠ some '-')
    (eq : (if negative then ['-'] else plus) ++ cs = (if negative' then ['-'] else plus) ++ cs') :
    negative = negative' ∧ cs = cs' := by
  have apart {cs cs' : List Char} (begins' : cs'.head? ≠ some '-') : ['-'] ++ cs ≠ plus ++ cs' := by
    intro eq
    rcases sign with rfl | rfl
    · exact begins' (by rw [← List.nil_append cs', ← eq]; rfl)
    · cases (List.cons.inj eq).1
  cases negative <;> cases negative'
  · exact ⟨rfl, List.append_cancel_left eq⟩
  · exact absurd eq.symm (apart begins)
  · exact absurd eq (apart begins')
  · exact ⟨rfl, List.append_cancel_left eq⟩

/-- The fraction with its point. -/
def fractionText (n : Numeral) : List Char := if n.fraction = [] then [] else '.' :: n.fraction

theorem text_eq_parts (plus : List Char) (n : Numeral) :
    n.text plus = (if n.negative then ['-'] else []) ++
      (n.whole ++ (n.fractionText ++ exponentText plus n.exponent)) := by
  simp [text, fractionText]

theorem noDigit_exponentText (plus : List Char) (e : Option Exponent) :
    NoDigit (exponentText plus e) := by
  cases e with
  | none => exact fun c hc => by cases hc
  | some e => exact noDigit_cons (by decide)

theorem noDigit_fractionText (plus : List Char) (n : Numeral) :
    NoDigit (n.fractionText ++ exponentText plus n.exponent) := by
  unfold fractionText
  split
  · exact noDigit_exponentText plus n.exponent
  · exact noDigit_cons (by decide)

theorem exponentText_inj (sign : plus = [] ∨ plus = ['+']) (h : n.Digital) (h' : n'.Digital)
    (eq : exponentText plus n.exponent = exponentText plus n'.exponent) :
    n.exponent = n'.exponent := by
  cases e : n.exponent with
  | none =>
    cases e' : n'.exponent with
    | none => rfl
    | some x' => simp [e, e', exponentText] at eq
  | some x =>
    cases e' : n'.exponent with
    | none => simp [e, e', exponentText] at eq
    | some x' =>
      have begins := head?_ne_hyphen (h.exponent x e) (h.exponentNonempty x e) []
      have begins' := head?_ne_hyphen (h'.exponent x' e') (h'.exponentNonempty x' e') []
      rw [List.append_nil] at begins begins'
      rw [e, e', exponentText, exponentText] at eq
      obtain ⟨negative, digits⟩ := signed_inj sign begins begins' (List.cons.inj eq).2
      rw [show x = x' by cases x; cases x'; cases negative; cases digits; rfl]

/-- Numerals that are made of digits are told by their texts. -/
theorem text_injective (sign : plus = [] ∨ plus = ['+']) (h : n.Digital) (h' : n'.Digital)
    (eq : n.text plus = n'.text plus) : n = n' := by
  rw [text_eq_parts, text_eq_parts] at eq
  obtain ⟨negative, eq⟩ := signed_inj (.inl rfl) (head?_ne_hyphen h.whole h.nonempty _)
    (head?_ne_hyphen h'.whole h'.nonempty _) eq
  obtain ⟨whole, eq⟩ := digits_append_inj h.whole h'.whole (noDigit_fractionText plus n)
    (noDigit_fractionText plus n') eq
  have noPoint (e : Option Exponent) (rest : List Char) : exponentText plus e ≠ '.' :: rest := by
    cases e <;> simp [exponentText]
  have fraction : n.fraction = n'.fraction ∧
      exponentText plus n.exponent = exponentText plus n'.exponent := by
    unfold fractionText at eq
    split at eq
    next none =>
      split at eq
      next none' => exact ⟨none.trans none'.symm, eq⟩
      next => exact absurd eq (noPoint _ _)
    next =>
      split at eq
      next => exact absurd eq.symm (noPoint _ _)
      next =>
        exact digits_append_inj h.fraction h'.fraction (noDigit_exponentText _ _)
          (noDigit_exponentText _ _) (List.cons.inj eq).2
  have exponent := exponentText_inj sign h h' fraction.2
  obtain ⟨_, _, _, _⟩ := n
  obtain ⟨_, _, _, _⟩ := n'
  simp_all

/-! ## The magnitude of a numeral -/

/-- The power of ten at the end. -/
def power (n : Numeral) : Int :=
  match n.exponent with
  | none => 0
  | some e => if e.negative then -(Text.ofDecimal e.digits : Int) else Text.ofDecimal e.digits

/-- The magnitude of the number that a numeral stands for, exactly. -/
def magnitude (n : Numeral) : ℚ :=
  Text.ofDecimal (n.whole ++ n.fraction) * (10 : ℚ) ^ (n.power - n.fraction.length)

theorem ofDecimal_append_zeros (ds : List Char) (n : Nat) :
    Text.ofDecimal (ds ++ List.replicate n '0') = 10 ^ n * Text.ofDecimal ds := by
  rw [Text.ofDecimal, Nat.ofDigitChars_append, Nat.ofDigitChars_replicate_zero]
  rfl

theorem ofDecimal_zeros_append (ds : List Char) (n : Nat) :
    Text.ofDecimal (List.replicate n '0' ++ ds) = Text.ofDecimal ds := by
  rw [Text.ofDecimal, Nat.ofDigitChars_append, Nat.ofDigitChars_replicate_zero, Nat.mul_zero]
  rfl

theorem magnitude_layOut (positional : Int → Bool) (negative : Bool) {digits : List Char}
    (nonempty : digits ≠ []) (exponent : Int) :
    (layOut positional negative digits exponent).magnitude =
      Text.ofDecimal digits * (10 : ℚ) ^ exponent := by
  have some : 0 < digits.length := List.length_pos_iff.2 nonempty
  unfold layOut
  simp only
  split
  · split
    next nonneg =>
      have zeros : digits ++ List.replicate exponent.toNat '0' ++ ['0'] =
          digits ++ List.replicate (exponent.toNat + 1) '0' := by
        rw [List.append_assoc, List.replicate_succ']
      obtain ⟨k, rfl⟩ := Int.eq_ofNat_of_zero_le nonneg
      simp only [magnitude, power, zeros, ofDecimal_append_zeros, List.length_singleton]
      rw [show (0 : Int) - (1 : Nat) = -1 by rfl, zpow_neg_one, Int.toNat_natCast, zpow_natCast]
      push_cast
      ring
    next negative =>
    split
    next first =>
      have count : (0 : Int) - (digits.drop ((exponent + digits.length - 1).toNat + 1)).length =
          exponent := by
        rw [List.length_drop]
        omega
      simp only [magnitude, power, List.take_append_drop, count]
    next =>
      have zeros : ['0'] ++ (List.replicate (-(exponent + digits.length - 1) - 1).toNat '0' ++ digits) =
          List.replicate ((-(exponent + digits.length - 1) - 1).toNat + 1) '0' ++ digits := rfl
      have count : (0 : Int) - (List.replicate (-(exponent + digits.length - 1) - 1).toNat '0' ++
          digits).length = exponent := by
        rw [List.length_append, List.length_replicate]
        omega
      simp only [magnitude, power, zeros, ofDecimal_zeros_append, count]
  · have signed : (if decide (exponent + digits.length - 1 < 0) = true then
          -((exponent + digits.length - 1).natAbs : Int) else (exponent + digits.length - 1).natAbs) =
        exponent + digits.length - 1 := by
      split
      next less => have := of_decide_eq_true less; omega
      next notLess => have := of_decide_eq_false (Bool.eq_false_iff.2 notLess); omega
    have count : exponent + digits.length - 1 - (digits.drop 1).length = exponent := by
      rw [List.length_drop]
      omega
    simp only [magnitude, power, Text.ofDecimal_decimal, signed, List.take_append_drop, count]

theorem layOut_leading (positional : Int → Bool) (negative : Bool) {digits : List Char}
    (nonempty : digits ≠ []) (begins : ∀ ds, digits ≠ '0' :: ds) (exponent : Int) :
    ∀ ds, (layOut positional negative digits exponent).whole = '0' :: ds → ds = [] := by
  obtain ⟨d, rest, rfl⟩ := List.exists_cons_of_ne_nil nonempty
  have notZero : d ≠ '0' := fun same => begins rest (same ▸ rfl)
  intro ds zero
  unfold layOut at zero
  simp only at zero
  split at zero
  · split at zero
    · exact absurd (List.cons.inj zero).1 notZero
    · split at zero
      · exact absurd (List.cons.inj zero).1 notZero
      · exact (List.cons.inj zero).2.symm
  · exact absurd (List.cons.inj zero).1 notZero

theorem layOut_not_whole (positional : Int → Bool) (negative : Bool) {digits : List Char}
    (nonempty : digits ≠ []) (exponent : Int) :
    (layOut positional negative digits exponent).fraction ≠ [] ∨
      (layOut positional negative digits exponent).exponent ≠ none := by
  unfold layOut
  simp only
  split
  · split
    · exact .inl (by simp)
    · split
      next first =>
        refine .inl fun none => ?_
        have count := congrArg List.length none
        rw [List.length_drop, List.length_nil] at count
        omega
      · exact .inl fun none => nonempty (List.append_eq_nil_iff.1 none).2
  · exact .inr (by simp)

end Numeral

/-! ## Finite numbers by their numerals -/

namespace Binary64

variable {x y : Binary64}

theorem numeral_negative (tie : Tie) (positional : Int → Bool) (x : Binary64) :
    (x.numeral tie positional).negative = x.negative := by
  unfold numeral Numeral.layOut
  simp only
  split_ifs <;> rfl

theorem numeral_of_zero (tie : Tie) (positional : Int → Bool) (zero : x.magnitude = 0) :
    x.numeral tie positional = ⟨x.negative, ['0'], ['0'], none⟩ := if_pos (decide_eq_true zero)

theorem numeral_of_nonzero (tie : Tie) (positional : Int → Bool) (nonzero : x.magnitude ≠ 0) :
    x.numeral tie positional = Numeral.layOut positional x.negative
      (Text.decimal (x.shortest tie).1) (x.shortest tie).2 :=
  if_neg fun isZero => nonzero (of_decide_eq_true isZero)

/-- The numeral of a finite number stands for zero only if the number is one, else for a point of its
interval. -/
theorem numeral_magnitude (tie : Tie) (positional : Int → Bool) (finite : x.isFinite = true) :
    (x.magnitude = 0 ∧ (x.numeral tie positional).magnitude = 0) ∨
      (x.magnitude ≠ 0 ∧ 0 < (x.numeral tie positional).magnitude ∧
        x.interval.Contains (x.numeral tie positional).magnitude) := by
  by_cases zero : x.magnitude = 0
  · have nothing : Text.ofDecimal (['0'] ++ ['0']) = 0 := by decide
    refine .inl ⟨zero, ?_⟩
    rw [numeral_of_zero tie positional zero, Numeral.magnitude, nothing, Nat.cast_zero, zero_mul]
  · obtain ⟨positive, inside⟩ := shortest_contains tie finite zero
    have value : (x.numeral tie positional).magnitude =
        (x.shortest tie).1 * (10 : ℚ) ^ (x.shortest tie).2 := by
      rw [numeral_of_nonzero tie positional zero,
        Numeral.magnitude_layOut _ _ (Text.decimal_ne_nil _), Text.ofDecimal_decimal]
    rw [value]
    exact .inr ⟨zero, mul_pos (by exact_mod_cast positive) (Interval.ten_zpow_pos _), inside⟩

theorem eq_of_sign_magnitude (sign : x.negative = y.negative)
    (magnitude : x.magnitude = y.magnitude) : x = y := by
  obtain ⟨bits⟩ := x
  obtain ⟨bits'⟩ := y
  have bound : bits.toNat < 0x10000000000000000 := bits.toNat_lt
  have bound' : bits'.toNat < 0x10000000000000000 := bits'.toNat_lt
  have sign' : 0x8000000000000000 ≤ bits.toNat ↔ 0x8000000000000000 ≤ bits'.toNat :=
    decide_eq_decide.1 sign
  have magnitude' : bits.toNat % 0x8000000000000000 = bits'.toNat % 0x8000000000000000 := magnitude
  rw [UInt64.toNat_inj.1 (by omega : bits.toNat = bits'.toNat)]

/-- Different finite numbers have different numerals. -/
theorem numeral_injective {tie : Tie} {positional : Int → Bool} (finite : x.isFinite = true)
    (finite' : y.isFinite = true) (eq : x.numeral tie positional = y.numeral tie positional) :
    x = y := by
  have sign : x.negative = y.negative := by
    rw [← numeral_negative tie positional, eq, numeral_negative]
  have magnitude : x.magnitude = y.magnitude := by
    have inX := numeral_magnitude tie positional finite
    have inY := numeral_magnitude tie positional finite'
    rw [eq] at inX
    rcases inX with ⟨zero, value⟩ | ⟨nonzero, positive, inside⟩ <;>
      rcases inY with ⟨zero', value'⟩ | ⟨nonzero', positive', inside'⟩
    · exact zero.trans zero'.symm
    · exact absurd value positive'.ne'
    · exact absurd value' positive.ne'
    · exact eq_of_contains nonzero nonzero' inside inside'
  exact eq_of_sign_magnitude sign magnitude

/-- No zero stands in front of the whole part of the numeral of a finite number. -/
theorem grammatical_numeral (tie : Tie) (positional : Int → Bool) (finite : x.isFinite = true) :
    (x.numeral tie positional).Grammatical := by
  have digital := digital_numeral tie positional x
  refine ⟨digital, ?_, digital.exponentNonempty⟩
  by_cases zero : x.magnitude = 0
  · rw [numeral_of_zero tie positional zero]
    exact fun ds same => (List.cons.inj same).2.symm
  · obtain ⟨positive, -⟩ := shortest_contains tie finite zero
    rw [numeral_of_nonzero tie positional zero]
    refine Numeral.layOut_leading _ _ (Text.decimal_ne_nil _) (fun ds begins => ?_) _
    have value := Text.ofDecimal_decimal (x.shortest tie).1
    rw [begins, Text.decimal_leading begins] at value
    exact positive.ne value

theorem numeral_not_whole (tie : Tie) (positional : Int → Bool) (x : Binary64) :
    (x.numeral tie positional).fraction ≠ [] ∨ (x.numeral tie positional).exponent ≠ none := by
  by_cases zero : x.magnitude = 0
  · rw [numeral_of_zero tie positional zero]
    exact .inl (by simp)
  · rw [numeral_of_nonzero tie positional zero]
    exact Numeral.layOut_not_whole _ _ (Text.decimal_ne_nil _) _

end Binary64

/-! ## JSON values by their texts -/

namespace Json

theorem numeral_ne_ofInt (x : Binary64) (n : Int) :
    x.numeral .toEven positional ≠ Numeral.ofInt n := by
  intro same
  have parts := x.numeral_not_whole .toEven positional
  rw [same] at parts
  simp [Numeral.ofInt] at parts

theorem Number.numeral_injective {a b : Number} (eq : a.numeral = b.numeral) : a = b := by
  cases a with
  | integer n fits =>
    cases b with
    | integer m fits' =>
      have same := congrArg Numeral.int? (show Numeral.ofInt n = Numeral.ofInt m from eq)
      rw [Numeral.int?_ofInt, Numeral.int?_ofInt] at same
      cases same
      rfl
    | float y finite => exact absurd eq.symm (numeral_ne_ofInt y n)
  | float x finite =>
    cases b with
    | integer m fits => exact absurd eq (numeral_ne_ofInt x m)
    | float y finite' =>
      cases Binary64.numeral_injective finite finite' eq
      rfl

theorem Number.grammatical_numeral (a : Number) : a.numeral.Grammatical := by
  cases a with
  | integer n fits => exact Numeral.grammatical_ofInt n
  | float x finite => exact Binary64.grammatical_numeral _ _ finite

mutual

theorem Value.readable (v : Value) : v.toJson.Readable := by
  match v with
  | .null | .bool _ | .string _ => trivial
  | .number a => exact a.grammatical_numeral
  | .array items => exact Value.itemsReadable items
  | .object members => exact Value.membersReadable members

theorem Value.itemsReadable (items : List Value) : ItemsReadable (Value.itemsToJson items) := by
  match items with
  | [] => trivial
  | item :: rest => exact ⟨Value.readable item, Value.itemsReadable rest⟩

theorem Value.membersReadable (members : List (String × Value)) :
    MembersReadable (Value.membersToJson members) := by
  match members with
  | [] => trivial
  | (_, value) :: rest => exact ⟨Value.readable value, Value.membersReadable rest⟩

end

mutual

theorem Value.toJson_injective {v w : Value} (eq : v.toJson = w.toJson) : v = w := by
  match v with
  | .null => cases w with
    | null => rfl
    | _ => cases eq
  | .bool a => cases w with
    | bool b => rw [Json.bool.inj eq]
    | _ => cases eq
  | .number a => cases w with
    | number b => rw [Number.numeral_injective (Json.number.inj eq)]
    | _ => cases eq
  | .string a => cases w with
    | string b => rw [Json.string.inj eq]
    | _ => cases eq
  | .array as => cases w with
    | array bs => rw [Value.itemsToJson_injective (Json.array.inj eq)]
    | _ => cases eq
  | .object as => cases w with
    | object bs => rw [Value.membersToJson_injective (Json.object.inj eq)]
    | _ => cases eq

theorem Value.itemsToJson_injective {as bs : List Value}
    (eq : Value.itemsToJson as = Value.itemsToJson bs) : as = bs := by
  match as, bs with
  | [], [] => rfl
  | [], _ :: _ | _ :: _, [] => cases eq
  | a :: as, b :: bs =>
    obtain ⟨first, others⟩ := List.cons.inj eq
    rw [Value.toJson_injective first, Value.itemsToJson_injective others]

theorem Value.membersToJson_injective {as bs : List (String × Value)}
    (eq : Value.membersToJson as = Value.membersToJson bs) : as = bs := by
  match as, bs with
  | [], [] => rfl
  | [], _ :: _ | _ :: _, [] => cases eq
  | (k, a) :: as, (l, b) :: bs =>
    obtain ⟨first, others⟩ := List.cons.inj eq
    obtain ⟨key, value⟩ := Prod.mk.inj first
    rw [key, Value.toJson_injective value, Value.membersToJson_injective others]

end

/-- Different values have different texts. -/
theorem Value.text_injective {v w : Value} (eq : v.text = w.text) : v = w := by
  have render : v.toJson.render = w.toJson.render := congrArg String.ofList eq
  have read := read?_render_of_readable v.readable
  rw [render, read?_render_of_readable w.readable] at read
  exact Value.toJson_injective (Option.some.inj read).symm

end Json

end DraftLedger
