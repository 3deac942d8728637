import DraftLedger.Script

/-!
# Texts as bytes

Texts are kept in the order of their characters.  That is the order of their bytes in UTF-8, and a text
starts with another one in characters just when it does so in bytes.

* `Script.utf8_append`, `Script.utf8_injective` : texts that are joined, and texts with the same bytes.
* `Utf8.encode_eq` : the bytes of a character, a leading one and up to three of six bits each.
* `Utf8.encode_append_lt` : the first different character decides, whatever follows.
* `Script.utf8_lt_iff`, `Script.utf8_prefix_iff` : the order and the start of texts.
-/

set_option autoImplicit false

namespace DraftLedger

open String (utf8EncodeChar)

/-! ## Characters -/

namespace Utf8

variable {m n : Nat} {x y : List UInt8}

/-- A number without its lowest `k` groups of six bits. -/
def above : Nat → Nat → Nat
  | 0, n => n
  | k + 1, n => above k (n / 64)

/-- The lowest `k` groups of six bits of a number, a byte each, the highest first. -/
def trailing : Nat → Nat → List UInt8
  | 0, _ => []
  | k + 1, n => trailing k (n / 64) ++ [UInt8.ofNat (n % 64 + 128)]

/-- How many bytes follow the leading one of a code point. -/
def extra (n : Nat) : Nat :=
  if n ≤ 0x7f then 0 else if n ≤ 0x7ff then 1 else if n ≤ 0xffff then 2 else 3

/-- The leading byte of a code point, as a number. -/
def lead (n : Nat) : Nat :=
  if n ≤ 0x7f then n
  else if n ≤ 0x7ff then above 1 n + 0xc0
  else if n ≤ 0xffff then above 2 n + 0xe0
  else above 3 n + 0xf0

theorem size_cases (n : Nat) :
    (n ≤ 0x7f ∧ extra n = 0 ∧ lead n = n) ∨
    (0x7f < n ∧ n ≤ 0x7ff ∧ extra n = 1 ∧ lead n = n / 64 + 0xc0) ∨
    (0x7ff < n ∧ n ≤ 0xffff ∧ extra n = 2 ∧ lead n = n / 64 / 64 + 0xe0) ∨
    (0xffff < n ∧ extra n = 3 ∧ lead n = n / 64 / 64 / 64 + 0xf0) := by
  simp only [lead, extra, above]
  split
  · omega
  split
  · omega
  split <;> omega

theorem lead_lt_size (bound : n < 0x110000) : lead n < 256 := by
  have sizes := size_cases n
  omega

/-- The leading byte of a later code point is higher, or it is the same and as many bytes follow. -/
theorem lead_lt (lt : m < n) (bound : n < 0x110000) :
    lead m < lead n ∨ lead m = lead n ∧ extra m = extra n ∧
      above (extra m) m = above (extra m) n := by
  have sizes := size_cases m
  have sizes' := size_cases n
  by_cases same : extra m = extra n
  -- With as many bytes, what is above them is in the leading one; with more, that one is higher.
  · rcases sizes with ⟨_, size, value⟩ | ⟨_, _, size, value⟩ | ⟨_, _, size, value⟩ | ⟨_, size, value⟩
    all_goals
      simp only [size, value, above]
      omega
  · exact .inl (by omega)

/-- The bytes that follow compare like the numbers when what is above them is the same. -/
theorem trailing_append_lt {k : Nat} (lt : m < n) (same : above k m = above k n) (x y : List UInt8) :
    trailing k m ++ x < trailing k n ++ y := by
  induction k generalizing m n x y with
  | zero => exact absurd same (Nat.ne_of_lt lt)
  | succ k ih =>
    simp only [trailing, List.append_assoc]
    by_cases differ : m / 64 < n / 64
    -- The groups above the last one decide; the last byte is part of what follows them.
    · exact ih differ same _ _
    · have equal : m / 64 = n / 64 := by omega
      have byte : m % 64 + 128 < UInt8.size := by simp only [UInt8.size]; omega
      have byte' : n % 64 + 128 < UInt8.size := by simp only [UInt8.size]; omega
      have lower : UInt8.ofNat (m % 64 + 128) < UInt8.ofNat (n % 64 + 128) :=
        (UInt8.ofNat_lt_iff_lt byte byte').2 (by omega)
      rw [equal]
      exact List.append_left_lt (List.cons_lt_cons_iff.2 (.inl lower))

theorem toNat_lt (c : Char) : c.val.toNat < 0x110000 := by
  rcases c.valid with low | ⟨-, high⟩
  · exact Nat.lt_trans low (by decide)
  · exact high

/-- The bytes of a character: a leading one, and those that follow it. -/
theorem encode_eq (c : Char) :
    utf8EncodeChar c = UInt8.ofNat (lead c.val.toNat) :: trailing (extra c.val.toNat) c.val.toNat := by
  have bound := toNat_lt c
  unfold utf8EncodeChar lead extra
  generalize c.val.toNat = n at bound
  simp only
  split
  · rfl
  split
  next small =>
    have top : n / 64 % 32 = n / 64 := by omega
    simp [trailing, above, top]
  split
  next small =>
    have top : n / 4096 % 16 = n / 64 / 64 := by omega
    simp [trailing, above, top]
  next large =>
    have top : n / 262144 % 8 = n / 64 / 64 / 64 := by omega
    have second : n / 4096 % 64 = n / 64 / 64 % 64 := by omega
    simp [trailing, above, top, second]

/-- The bytes of a later character are higher, whatever follows. -/
theorem encode_append_lt {a b : Char} (lt : a < b) (x y : List UInt8) :
    utf8EncodeChar a ++ x < utf8EncodeChar b ++ y := by
  have codes : a.val.toNat < b.val.toNat := UInt32.lt_iff_toNat_lt.1 (Char.lt_def.1 lt)
  rw [encode_eq, encode_eq, List.cons_append, List.cons_append, List.cons_lt_cons_iff,
    UInt8.ofNat_lt_iff_lt (lead_lt_size (toNat_lt a)) (lead_lt_size (toNat_lt b))]
  rcases lead_lt codes (toNat_lt b) with higher | ⟨equal, size, top⟩
  · exact .inl higher
  · exact .inr ⟨congrArg _ equal, size ▸ trailing_append_lt codes top x y⟩

theorem encode_append_inj {a b : Char} (eq : utf8EncodeChar a ++ x = utf8EncodeChar b ++ y) :
    a = b := by
  refine Char.le_antisymm (Char.not_lt.1 fun lt => ?_) (Char.not_lt.1 fun lt => ?_)
  · exact List.lt_irrefl _ (eq ▸ encode_append_lt lt y x)
  · exact List.lt_irrefl _ (eq ▸ encode_append_lt lt x y)

end Utf8

/-! ## Texts -/

theorem flatMap_encode_lt {l m : List Char} (lt : l < m) :
    l.flatMap utf8EncodeChar < m.flatMap utf8EncodeChar := by
  induction lt with
  | @nil a rest =>
    rw [List.flatMap_nil, List.flatMap_cons, Utf8.encode_eq]
    exact List.nil_lt_cons _ _
  | rel first => exact Utf8.encode_append_lt first _ _
  | cons _ ih => exact List.append_left_lt ih

theorem flatMap_encode_prefix_iff {p k : List Char} :
    p.flatMap utf8EncodeChar <+: k.flatMap utf8EncodeChar ↔ p <+: k := by
  constructor
  · intro start
    induction p generalizing k with
    | nil => exact List.nil_prefix
    | cons a p ih =>
      cases k with
      | nil =>
        rw [List.flatMap_nil, List.prefix_nil, List.flatMap_cons, Utf8.encode_eq] at start
        exact absurd start (List.cons_ne_nil _ _)
      | cons b k =>
        rw [List.flatMap_cons, List.flatMap_cons] at start
        obtain ⟨rest, eq⟩ := start
        rw [List.append_assoc] at eq
        obtain rfl := Utf8.encode_append_inj eq
        have tails : p.flatMap utf8EncodeChar <+: k.flatMap utf8EncodeChar :=
          ⟨rest, List.append_cancel_left eq⟩
        exact List.cons_prefix_cons.2 ⟨rfl, ih tails⟩
  · rintro ⟨rest, rfl⟩
    rw [List.flatMap_append]
    exact List.prefix_append _ _

namespace Script

variable {x y : String}

theorem utf8_append (x y : String) : utf8 (x ++ y) = utf8 x ++ utf8 y := by
  simp [utf8, String.toUTF8]

theorem utf8_injective (h : utf8 x = utf8 y) : x = y := by
  apply String.toByteArray_inj.1
  exact ByteArray.ext (Array.toList_inj.1 h)

theorem utf8_empty : utf8 "" = [] := rfl

theorem utf8_eq (s : String) : utf8 s = s.toList.flatMap utf8EncodeChar := by
  have bytes : s.toByteArray = s.toList.utf8Encode := by
    conv => lhs; rw [← String.ofList_toList (s := s)]
    exact String.toByteArray_ofList
  rw [utf8, String.toUTF8_eq_toByteArray, bytes, List.utf8Encode, List.toList_data_toByteArray]

theorem utf8_lt (lt : x < y) : utf8 x < utf8 y := by
  rw [utf8_eq, utf8_eq]
  exact flatMap_encode_lt lt

/-- Texts are in the order of their bytes. -/
theorem utf8_lt_iff : utf8 x < utf8 y ↔ x < y := by
  refine ⟨fun lt => Decidable.byContradiction fun notLt => ?_, utf8_lt⟩
  by_cases gt : y < x
  · exact List.lt_asymm lt (utf8_lt gt)
  · rw [String.le_antisymm gt notLt] at lt
    exact List.lt_irrefl _ lt

/-- A text starts with another one when its bytes do. -/
theorem utf8_prefix_iff {start text : String} :
    utf8 start <+: utf8 text ↔ start.toList <+: text.toList := by
  rw [utf8_eq, utf8_eq]
  exact flatMap_encode_prefix_iff

end Script

end DraftLedger
