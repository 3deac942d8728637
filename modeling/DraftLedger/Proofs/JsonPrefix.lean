import DraftLedger.Proofs.JsonText
import Mathlib.Data.List.TakeWhile

/-!
# Texts that go on

What has been read off the front of a text is read in the same way when the text goes on.  Only a number
at the very end of the text may go on itself.  So the text of an object is complete at its last brace and
not before: no proper start of it is the text of anything.

* `Numeral.scan?_more`, `Json.scanString?_more`, `Json.scan?_more` : reading a text that goes on.
* `Json.ofText?_of_torn` : the start of the text of an object is not read.
-/

set_option autoImplicit false

namespace DraftLedger

/-! ## Numerals -/

namespace Numeral

variable {cs left q : List Char}

theorem scanDigits_more {ds : List Char} (hs : scanDigits cs = (ds, left)) (more : left ≠ []) :
    scanDigits (cs ++ q) = (ds, left ++ q) := by
  obtain ⟨taken, dropped⟩ := Prod.mk.inj hs
  have whole : cs = ds ++ left := by
    rw [← taken, ← dropped, List.takeWhile_append_dropWhile]
  have digits : ∀ c ∈ ds, c.isDigit = true := fun c hc => List.mem_takeWhile_imp (taken ▸ hc)
  obtain ⟨c, rest, eq⟩ := List.exists_cons_of_ne_nil more
  have stop : c.isDigit = false := by
    have head := List.head?_dropWhile_not Char.isDigit cs
    simpa [dropped, eq] using head
  rw [whole, List.append_assoc]
  exact scanDigits_append digits (eq ▸ noDigit_cons stop)

theorem scanWhole?_more {whole : List Char} (hs : scanWhole? cs = some (whole, left))
    (more : left ≠ []) : scanWhole? (cs ++ q) = some (whole, left ++ q) := by
  unfold scanWhole? at hs ⊢
  cases scanned : scanDigits cs with
  | mk ds rest =>
    rw [scanned] at hs
    have same : rest = left := by
      split at hs
      · cases hs
      · cases hs
      · next eq =>
        cases eq
        cases hs
        rfl
    rw [scanDigits_more scanned (same ▸ more)]
    split at hs
    · cases hs
    · cases hs
    · next zero nonzero eq =>
      cases eq
      cases hs
      split
      · next eq => cases eq; exact (zero rfl).elim
      · next eq => cases eq; exact (nonzero _ _ rfl).elim
      · next eq => cases eq; rfl

theorem scanFraction?_more {fraction : List Char} (hs : scanFraction? cs = some (fraction, left))
    (more : left ≠ []) : scanFraction? (cs ++ q) = some (fraction, left ++ q) := by
  unfold scanFraction? at hs
  split at hs
  · next digits =>
    rw [List.cons_append, scanFraction?]
    split at hs
    · cases hs
    · next ds rest nonempty scanned =>
      cases hs
      rw [scanDigits_more scanned more]
      split
      · next eq => cases eq; exact (nonempty rfl).elim
      · next eq => cases eq; rfl
  · next other =>
    cases hs
    unfold scanFraction?
    split
    · next rest eq =>
      obtain ⟨c, rest', rfl⟩ := List.exists_cons_of_ne_nil more
      obtain ⟨rfl, -⟩ := List.cons.inj eq
      exact absurd rfl (other _)
    · rfl

theorem scanExponentSign_more (nonempty : cs ≠ []) :
    scanExponentSign (cs ++ q) = ((scanExponentSign cs).1, (scanExponentSign cs).2 ++ q) := by
  obtain ⟨c, rest, rfl⟩ := List.exists_cons_of_ne_nil nonempty
  rw [List.cons_append]
  unfold scanExponentSign
  split <;> split <;> simp_all

theorem scanExponent?_more {exponent : Option Exponent}
    (hs : scanExponent? cs = some (exponent, left)) (more : left ≠ []) :
    scanExponent? (cs ++ q) = some (exponent, left ++ q) := by
  unfold scanExponent? at hs
  split at hs
  · cases hs
    exact absurd rfl more
  · next c rest =>
    rw [List.cons_append, scanExponent?]
    split at hs
    · next mark =>
      rw [if_pos mark]
      cases signed : scanExponentSign rest with
      | mk negative after =>
      rw [signed] at hs
      have something : rest ≠ [] := by
        rintro rfl
        cases signed
        cases hs
      rw [scanExponentSign_more something, signed]
      simp only at hs ⊢
      split at hs
      · cases hs
      · next ds rest' nonempty scanned =>
        cases hs
        rw [scanDigits_more scanned more]
        split
        · next eq => cases eq; exact (nonempty rfl).elim
        · next eq => cases eq; rfl
    · next plain =>
      cases hs
      rw [if_neg plain]
      rfl

/-- A numeral that ends before the end of a text is read in the same way when the text goes on. -/
theorem scan?_more {n : Numeral} (hs : scan? cs = some (n, left)) (more : left ≠ []) :
    scan? (cs ++ q) = some (n, left ++ q) := by
  unfold scan? at hs ⊢
  simp only [Option.bind_eq_bind, Option.bind_eq_some_iff, Prod.exists] at hs
  obtain ⟨whole, left₁, hw, fraction, left₂, hf, exponent, left₃, he, eq⟩ := hs
  cases eq
  have more₂ : left₂ ≠ [] := by
    rintro rfl
    cases he
    exact more rfl
  have more₁ : left₁ ≠ [] := by
    rintro rfl
    cases hf
    exact more₂ rfl
  have minus : scanMinus (cs ++ q) = ((scanMinus cs).1, (scanMinus cs).2 ++ q) := by
    obtain ⟨c, rest, rfl⟩ := List.exists_cons_of_ne_nil (show cs ≠ [] by rintro rfl; cases hw)
    rw [List.cons_append]
    unfold scanMinus
    split <;> split <;> simp_all
  simp only [minus, scanWhole?_more hw more₁, scanFraction?_more hf more₂,
    scanExponent?_more he more, Option.bind_eq_bind, Option.bind_some]

theorem head_of_scan? {n : Numeral} (hs : scan? cs = some (n, left)) :
    ∃ c rest, cs = c :: rest ∧ (c = '-' ∨ c.isDigit = true) := by
  unfold scan? at hs
  simp only [Option.bind_eq_bind, Option.bind_eq_some_iff, Prod.exists] at hs
  obtain ⟨whole, left₁, hw, -⟩ := hs
  cases cs with
  | nil => cases hw
  | cons c rest =>
    refine ⟨c, rest, rfl, ?_⟩
    by_cases minus : c = '-'
    · exact .inl minus
    · refine .inr (Bool.of_not_eq_false fun other => ?_)
      have same : scanMinus (c :: rest) = (false, c :: rest) := by
        unfold scanMinus
        split
        · next eq => exact absurd (List.cons.inj eq).1 minus
        · rfl
      rw [same] at hw
      simp [scanWhole?, scanDigits, other] at hw

end Numeral

namespace Json

/-! ## Strings -/

section

variable {seen s : Option (List Char)} {cs r : List Char}

theorem unit_of_append {q rest : List Char} {a b c d : Char}
    (eq : cs ++ q = '\\' :: 'u' :: a :: b :: c :: d :: rest)
    (hs : scanString? seen cs = some (s, r)) :
    ∃ rest', cs = '\\' :: 'u' :: a :: b :: c :: d :: rest' := by
  have escape : escape? 'u' = none := rfl
  match cs with
  | [] => simp [scanString?] at hs
  | [x] =>
    obtain ⟨rfl, -⟩ := List.cons.inj eq
    simp [scanString?] at hs
  | [x, y] | [x, y, _] | [x, y, _, _] | [x, y, _, _, _] =>
    simp only [List.cons_append, List.cons.injEq] at eq
    obtain ⟨rfl, rfl, -⟩ := eq
    simp [scanString?, escape] at hs
  | x :: y :: a' :: b' :: c' :: d' :: rest' =>
    simp only [List.cons_append, List.cons.injEq] at eq
    obtain ⟨rfl, rfl, rfl, rfl, rfl, rfl, -⟩ := eq
    exact ⟨rest', rfl⟩

/-- A string that is read ends at its quote, wherever the text ends. -/
theorem scanString?_more (q : List Char) (hs : scanString? seen cs = some (s, r)) :
    scanString? seen (cs ++ q) = some (s, r ++ q) := by
  fun_induction scanString? seen cs with
  | case1 => cases hs
  | case2 seen rest =>
    cases hs
    simp [scanString?]
  | case3 => cases hs
  | case4 => cases hs
  | case5 seen a b c d u unit leading e f g h after v unit' trailing ih =>
    simp only [List.cons_append, scanString?, unit, leading, unit', trailing, if_true]
    exact ih hs
  | case6 seen a b c d u unit leading e f g h after v unit' trailing ih =>
    simp only [List.cons_append, scanString?, unit, leading, unit', trailing, if_true]
    exact ih hs
  | case7 seen a b c d u unit leading rest alone ih =>
    simp only [List.cons_append, scanString?, unit, leading, if_true]
    split
    · next e f g h after eq =>
      obtain ⟨after', pair⟩ := unit_of_append eq hs
      exact (alone e f g h after' pair).elim
    · exact ih hs
  | case8 seen a b c d rest u unit leading trailing ih =>
    simp only [List.cons_append, scanString?, unit, leading, trailing, if_true]
    exact ih hs
  | case9 seen a b c d rest u unit leading trailing ih =>
    simp only [List.cons_append, scanString?, unit, leading, trailing]
    exact ih hs
  | case10 => cases hs
  | case11 seen c rest plain c' escape ih =>
    have notUnit : c ≠ 'u' := by
      rintro rfl
      cases escape
    rw [List.cons_append, List.cons_append, scanString?]
    · simp only [escape]
      exact ih hs
    · exact fun _ _ _ _ _ unit => (notUnit unit).elim
  | case12 => cases hs
  | case13 seen c rest quote unit escape printable ih =>
    simp only [Bool.or_eq_true, decide_eq_true_eq, not_or] at printable
    rw [List.cons_append, scanString?_plain seen _ quote printable.2 printable.1]
    exact ih hs

end

/-! ## Values -/

section

variable {cs q : List Char}

theorem skipSpace_more (more : skipSpace cs ≠ []) : skipSpace (cs ++ q) = skipSpace cs ++ q := by
  unfold skipSpace at more ⊢
  rw [List.dropWhile_append, if_neg (by simpa using more)]

theorem skipSpace_more_of_eq {c : Char} {rest : List Char} (h : skipSpace cs = c :: rest) :
    skipSpace (cs ++ q) = c :: (rest ++ q) := by
  rw [skipSpace_more (by rw [h]; exact List.cons_ne_nil _ _), h, List.cons_append]

theorem scanItems?_nil (fuel : Nat) : scanItems? fuel [] = none := by
  cases fuel with
  | zero => rfl
  | succ fuel => cases fuel <;> rfl

theorem scanMembers?_nil (fuel : Nat) : scanMembers? fuel [] = none := by
  cases fuel <;> rfl

/-- What comes after an opening bracket: the closing one, or something that is read up to it. -/
def scanClosed? {α : Type} (close : Char) (empty : Json) (make : α → Json)
    (further : List Char → Option (α × List Char)) (cs : List Char) : Option (Json × List Char) :=
  if cs.head? = some close then some (empty, cs.tail)
  else (further cs).map fun r => (make r.1, r.2)

theorem scan?_array (fuel : Nat) {rest : List Char} (opens : skipSpace cs = '[' :: rest) :
    scan? (fuel + 1) cs =
      scanClosed? ']' (.array []) .array (scanItems? fuel) (skipSpace rest) := by
  rw [scan?, opens]
  simp only [scanClosed?]
  split
  · next closes => simp [closes]
  · next other =>
    rw [if_neg fun closes => other _ (List.head?_eq_some_iff.1 closes).choose_spec]
    cases scanItems? fuel (skipSpace rest) <;> rfl

theorem scan?_object (fuel : Nat) {rest : List Char} (opens : skipSpace cs = '\x7b' :: rest) :
    scan? (fuel + 1) cs =
      scanClosed? '\x7d' (.object []) ofMembers (scanMembers? fuel) (skipSpace rest) := by
  rw [scan?, opens]
  simp only [scanClosed?]
  split
  · next closes => simp [closes]
  · next other =>
    rw [if_neg fun closes => other _ (List.head?_eq_some_iff.1 closes).choose_spec]
    cases scanMembers? fuel (skipSpace rest) <;> rfl

theorem scanClosed?_more {α : Type} {close : Char} {empty j : Json} {make : α → Json}
    {further : List Char → Option (α × List Char)} {left : List Char} (nothing : further [] = none)
    (goesOn : ∀ {cs a left}, further cs = some (a, left) → further (cs ++ q) = some (a, left ++ q))
    (hs : scanClosed? close empty make further (skipSpace cs) = some (j, left)) :
    scanClosed? close empty make further (skipSpace (cs ++ q)) = some (j, left ++ q) := by
  unfold scanClosed? at hs ⊢
  cases inner : skipSpace cs with
  | nil => simp [inner, nothing] at hs
  | cons c rest =>
    rw [inner, List.head?_cons] at hs
    rw [skipSpace_more_of_eq inner, List.head?_cons]
    split at hs
    · next closes =>
      cases hs
      rw [if_pos closes]
      rfl
    · next other =>
      obtain ⟨⟨a, after⟩, read, eq⟩ := Option.map_eq_some_iff.1 hs
      cases eq
      rw [if_neg other, ← List.cons_append, goesOn read]
      rfl

/-- A number that ends before the end of a text is read in the same way when the text goes on. -/
theorem scan?_numeral_more {n : Numeral} {fuel : Nat} {left : List Char}
    (read : Numeral.scan? (skipSpace cs) = some (n, left)) (more : left ≠ []) :
    scan? (fuel + 1) (cs ++ q) = some (.number n, left ++ q) := by
  obtain ⟨c, rest, eq, head⟩ := Numeral.head_of_scan? read
  have again : scan? (fuel + 1) (skipSpace (cs ++ q)) = some (.number n, left ++ q) := by
    rw [skipSpace_more_of_eq eq, scan?_numeral head, ← List.cons_append, ← eq,
      Numeral.scan?_more read more]
    rfl
  rw [scan?, skipSpace_more_of_eq eq]
  rw [skipSpace_more_of_eq eq, scan?, skipSpace_cons (numeral_head head).1] at again
  exact again

mutual

/-- A value that is read off the front of a text is read in the same way when the text goes on, unless
it is a number at the end of the text. -/
theorem scan?_more {j : Json} {fuel : Nat} {cs left q : List Char}
    (hs : scan? fuel cs = some (j, left)) (more : left ≠ [] ∨ ∀ n, j ≠ .number n) :
    scan? fuel (cs ++ q) = some (j, left ++ q) := by
  cases fuel with
  | zero => simp [scan?] at hs
  | succ fuel =>
    have whole := hs
    rw [scan?] at hs
    split at hs
    · next eq =>
      cases hs
      rw [scan?, skipSpace_more_of_eq eq]
      rfl
    · next eq =>
      cases hs
      rw [scan?, skipSpace_more_of_eq eq]
      rfl
    · next eq =>
      cases hs
      rw [scan?, skipSpace_more_of_eq eq]
      rfl
    · next rest eq =>
      rw [scan?, skipSpace_more_of_eq eq]
      split at hs
      · cases hs
      · next s after read =>
        cases hs
        simp only [scanString?_more q read]
    · next rest eq =>
      rw [scan?_array fuel eq] at whole
      rw [scan?_array fuel (skipSpace_more_of_eq eq)]
      exact scanClosed?_more (scanItems?_nil fuel) (fun read => scanItems?_more read) whole
    · next rest eq =>
      rw [scan?_object fuel eq] at whole
      rw [scan?_object fuel (skipSpace_more_of_eq eq)]
      exact scanClosed?_more (scanMembers?_nil fuel) (fun read => scanMembers?_more read) whole
    · next plain =>
      split at hs
      · cases hs
      next n after read =>
      cases hs
      exact scan?_numeral_more read (more.resolve_right fun other => other n rfl)
termination_by fuel

theorem scanItems?_more {items : List Json} {fuel : Nat} {cs left q : List Char}
    (hs : scanItems? fuel cs = some (items, left)) :
    scanItems? fuel (cs ++ q) = some (items, left ++ q) := by
  cases fuel with
  | zero => simp [scanItems?] at hs
  | succ fuel =>
    rw [scanItems?] at hs ⊢
    split at hs
    · cases hs
    next item rest read =>
    split at hs
    · next after close =>
      cases hs
      have more : rest ≠ [] := by
        rintro rfl
        cases close
      simp only [scan?_more read (.inl more), skipSpace_more_of_eq close]
    · next after comma =>
      have more : rest ≠ [] := by
        rintro rfl
        cases comma
      split at hs
      · cases hs
      next items after' read' =>
      cases hs
      simp only [scan?_more read (.inl more), skipSpace_more_of_eq comma, scanItems?_more read']
    · cases hs
termination_by fuel

theorem scanMembers?_more {members : Option (List (String × Json))} {fuel : Nat}
    {cs left q : List Char} (hs : scanMembers? fuel cs = some (members, left)) :
    scanMembers? fuel (cs ++ q) = some (members, left ++ q) := by
  cases fuel with
  | zero => simp [scanMembers?] at hs
  | succ fuel =>
    rw [scanMembers?] at hs ⊢
    split at hs
    · next rest quote =>
      simp only [skipSpace_more_of_eq quote]
      split at hs
      · cases hs
      next key rest' named =>
      simp only [scanString?_more q named]
      split at hs
      · next rest'' colon =>
        simp only [skipSpace_more_of_eq colon]
        split at hs
        · cases hs
        next value rest''' read =>
        have more (c : Char) (after : List Char) (eq : skipSpace rest''' = c :: after) :
            rest''' ≠ [] := by
          rintro rfl
          cases eq
        split at hs
        · next after close =>
          cases hs
          simp only [scan?_more read (.inl (more _ _ close)), skipSpace_more_of_eq close]
        · next after comma =>
          simp only [scan?_more read (.inl (more _ _ comma)), skipSpace_more_of_eq comma]
          split at hs
          · cases hs
          next members' after' read' =>
          cases hs
          simp only [scanMembers?_more read']
        · cases hs
      · cases hs
    · cases hs
termination_by fuel

end

end

/-! ## Texts that are cut short -/

theorem not_number_of_object {fuel : Nat} {cs left : List Char} {j : Json}
    (hs : scan? fuel ('\x7b' :: cs) = some (j, left)) (n : Numeral) : j ≠ .number n := by
  cases fuel with
  | zero => simp [scan?] at hs
  | succ fuel =>
    rw [scan?_object fuel (skipSpace_cons (by decide)), scanClosed?] at hs
    split at hs
    · cases hs
      simp
    · obtain ⟨⟨members, rest⟩, -, eq⟩ := Option.map_eq_some_iff.1 hs
      cases eq
      cases members <;> simp [ofMembers]

/-- The start of the text of an object is not read, unless it is the whole text. -/
theorem ofText?_of_torn {members : List (String × Json)} {p q : List Char}
    (plain : (Json.object members).Plain) (whole : p ++ q = (Json.object members).text)
    (torn : q ≠ []) : ofText? p = none := by
  cases read : ofText? p with
  | none => rfl
  | some j =>
    unfold ofText? at read
    split at read
    · next j' left scanned =>
      cases p with
      | nil => cases scanned
      | cons c rest =>
        obtain rfl : c = '\x7b' := by
          rw [text] at whole
          exact (List.cons.inj whole).1
        have again := scan?_more (q := q) scanned (.inr (not_number_of_object scanned))
        rw [whole, ← List.append_nil (text _)] at again
        obtain ⟨-, nothing⟩ := scan?_text plain (fun c hc => by simp at hc) again
        exact absurd (List.append_eq_nil_iff.1 nothing).2 torn
    · cases read

end Json

end DraftLedger
