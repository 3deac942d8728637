import DraftLedger.Cell

/-!
# Equality of cells is an equivalence

Two cells can be equal without being the same: inside a JSON cell the two zeros of the
floating-point numbers are equal.  So everything that is found by comparing cells (rows by their
keys, changes by their addresses) rests on the three laws proved here.
-/

set_option autoImplicit false

namespace DraftLedger

/-! ## Numbers -/

theorem Binary64.not_isNaN_of_isFinite {x : Binary64} (h : x.isFinite = true) :
    x.isNaN = false := by
  simp only [Binary64.isFinite, Binary64.isNaN, decide_eq_true_eq, decide_eq_false_iff_not] at h ⊢
  omega

theorem Binary64.numericallyEqual_iff {x y : Binary64} (hx : x.isFinite = true)
    (hy : y.isFinite = true) :
    x.numericallyEqual y = true ↔ x = y ∨ (x.isZero = true ∧ y.isZero = true) := by
  obtain ⟨a⟩ := x
  obtain ⟨b⟩ := y
  simp [Binary64.numericallyEqual, Binary64.not_isNaN_of_isFinite hx,
    Binary64.not_isNaN_of_isFinite hy]

namespace Json

theorem Number.same_refl (a : Number) : a.same a = true := by
  cases a with
  | integer n _ => simp [Number.same]
  | float x hx => exact (Binary64.numericallyEqual_iff hx hx).2 (.inl rfl)

theorem Number.same_symm {a b : Number} (h : a.same b = true) : b.same a = true := by
  cases a with
  | integer m _ => cases b <;> simp_all [Number.same]
  | float x hx =>
    cases b with
    | integer n _ => simp [Number.same] at h
    | float y hy =>
      have h := (Binary64.numericallyEqual_iff hx hy).1 h
      exact (Binary64.numericallyEqual_iff hy hx).2 (h.imp Eq.symm And.symm)

theorem Number.same_trans {a b c : Number} (h : a.same b = true) (h' : b.same c = true) :
    a.same c = true := by
  cases b with
  | integer n _ => cases a <;> cases c <;> simp_all [Number.same]
  | float y hy =>
    cases a with
    | integer m _ => simp [Number.same] at h
    | float x hx =>
      cases c with
      | integer n _ => simp [Number.same] at h'
      | float z hz =>
        have h := (Binary64.numericallyEqual_iff hx hy).1 h
        have h' := (Binary64.numericallyEqual_iff hy hz).1 h'
        refine (Binary64.numericallyEqual_iff hx hz).2 ?_
        rcases h with rfl | ⟨zx, zy⟩
        · exact h'
        · rcases h' with rfl | ⟨-, zz⟩
          · exact .inr ⟨zx, zy⟩
          · exact .inr ⟨zx, zz⟩

/-! ## JSON values -/

mutual

theorem Value.same_refl (a : Value) : a.same a = true := by
  match a with
  | .null | .bool _ | .string _ => simp [Value.same]
  | .number n => simpa [Value.same] using n.same_refl
  | .array items => simpa [Value.same] using Value.sameItems_refl items
  | .object members => simpa [Value.same] using Value.sameMembers_refl members

theorem Value.sameItems_refl (as : List Value) : Value.sameItems as as = true := by
  match as with
  | [] => simp [Value.sameItems]
  | a :: as => simp [Value.sameItems, Value.same_refl a, Value.sameItems_refl as]

theorem Value.sameMembers_refl (as : List (String × Value)) : Value.sameMembers as as = true := by
  match as with
  | [] => simp [Value.sameMembers]
  | (k, a) :: as => simp [Value.sameMembers, Value.same_refl a, Value.sameMembers_refl as]

end

mutual

theorem Value.same_symm {a b : Value} (h : a.same b = true) : b.same a = true := by
  match a with
  | .null | .bool _ | .string _ => cases b <;> simp_all [Value.same]
  | .number _ =>
    cases b with
    | number _ => simpa [Value.same] using Number.same_symm (by simpa [Value.same] using h)
    | _ => simp [Value.same] at h
  | .array as =>
    cases b with
    | array bs => simpa [Value.same] using Value.sameItems_symm (by simpa [Value.same] using h)
    | _ => simp [Value.same] at h
  | .object as =>
    cases b with
    | object bs => simpa [Value.same] using Value.sameMembers_symm (by simpa [Value.same] using h)
    | _ => simp [Value.same] at h

theorem Value.sameItems_symm {as bs : List Value} (h : Value.sameItems as bs = true) :
    Value.sameItems bs as = true := by
  match as, bs with
  | [], [] => simp [Value.sameItems]
  | [], _ :: _ | _ :: _, [] => simp [Value.sameItems] at h
  | a :: as, b :: bs =>
    simp only [Value.sameItems, Bool.and_eq_true] at h ⊢
    exact ⟨Value.same_symm h.1, Value.sameItems_symm h.2⟩

theorem Value.sameMembers_symm {as bs : List (String × Value)}
    (h : Value.sameMembers as bs = true) : Value.sameMembers bs as = true := by
  match as, bs with
  | [], [] => simp [Value.sameMembers]
  | [], _ :: _ | _ :: _, [] => simp [Value.sameMembers] at h
  | (k, a) :: as, (l, b) :: bs =>
    simp only [Value.sameMembers, Bool.and_eq_true, beq_iff_eq] at h ⊢
    exact ⟨⟨h.1.1.symm, Value.same_symm h.1.2⟩, Value.sameMembers_symm h.2⟩

end

mutual

theorem Value.same_trans {a b c : Value} (h : a.same b = true) (h' : b.same c = true) :
    a.same c = true := by
  match a with
  | .null | .bool _ | .string _ => cases b <;> cases c <;> simp_all [Value.same]
  | .number _ =>
    cases b with
    | number _ =>
      cases c with
      | number _ =>
        simp only [Value.same] at h h' ⊢
        exact Number.same_trans h h'
      | _ => simp [Value.same] at h'
    | _ => simp [Value.same] at h
  | .array as =>
    cases b with
    | array bs =>
      cases c with
      | array cs =>
        simp only [Value.same] at h h' ⊢
        exact Value.sameItems_trans h h'
      | _ => simp [Value.same] at h'
    | _ => simp [Value.same] at h
  | .object as =>
    cases b with
    | object bs =>
      cases c with
      | object cs =>
        simp only [Value.same] at h h' ⊢
        exact Value.sameMembers_trans h h'
      | _ => simp [Value.same] at h'
    | _ => simp [Value.same] at h

theorem Value.sameItems_trans {as bs cs : List Value} (h : Value.sameItems as bs = true)
    (h' : Value.sameItems bs cs = true) : Value.sameItems as cs = true := by
  match as, bs, cs with
  | [], [], [] => simp [Value.sameItems]
  | [], _ :: _, _ | _ :: _, [], _ => simp [Value.sameItems] at h
  | [], [], _ :: _ | _ :: _, _ :: _, [] => simp [Value.sameItems] at h'
  | a :: as, b :: bs, c :: cs =>
    simp only [Value.sameItems, Bool.and_eq_true] at h h' ⊢
    exact ⟨Value.same_trans h.1 h'.1, Value.sameItems_trans h.2 h'.2⟩

theorem Value.sameMembers_trans {as bs cs : List (String × Value)}
    (h : Value.sameMembers as bs = true) (h' : Value.sameMembers bs cs = true) :
    Value.sameMembers as cs = true := by
  match as, bs, cs with
  | [], [], [] => simp [Value.sameMembers]
  | [], _ :: _, _ | _ :: _, [], _ => simp [Value.sameMembers] at h
  | [], [], _ :: _ | _ :: _, _ :: _, [] => simp [Value.sameMembers] at h'
  | (k, a) :: as, (l, b) :: bs, (m, c) :: cs =>
    simp only [Value.sameMembers, Bool.and_eq_true, beq_iff_eq] at h h' ⊢
    exact ⟨⟨h.1.1.trans h'.1.1, Value.same_trans h.1.2 h'.1.2⟩,
      Value.sameMembers_trans h.2 h'.2⟩

end

end Json

/-! ## Cells -/

namespace Cell

mutual

theorem same_refl (a : Cell) : a.same a = true := by
  match a with
  | .json v => simpa [same, Json.OrderedValue.same] using v.value.same_refl
  | .array items => simpa [same] using sameItems_refl items
  | .null | .boolean _ | .integer _ | .float _ | .decimal _ | .text _ | .date _ | .time _
  | .timestamp _ | .instant _ | .uuid _ | .bytes _ => simp [same]

theorem sameItems_refl (as : List Cell) : sameItems as as = true := by
  match as with
  | [] => simp [sameItems]
  | a :: as => simp [sameItems, same_refl a, sameItems_refl as]

end

mutual

theorem same_symm {a b : Cell} (h : a.same b = true) : b.same a = true := by
  match a with
  | .json v =>
    cases b with
    | json w =>
      simp only [same, Json.OrderedValue.same] at h ⊢
      exact Json.Value.same_symm h
    | _ => simp [same] at h
  | .array as =>
    cases b with
    | array bs => simpa [same] using sameItems_symm (by simpa [same] using h)
    | _ => simp [same] at h
  | .null | .boolean _ | .integer _ | .float _ | .decimal _ | .text _ | .date _ | .time _
  | .timestamp _ | .instant _ | .uuid _ | .bytes _ => cases b <;> simp_all [same]

theorem sameItems_symm {as bs : List Cell} (h : sameItems as bs = true) :
    sameItems bs as = true := by
  match as, bs with
  | [], [] => simp [sameItems]
  | [], _ :: _ | _ :: _, [] => simp [sameItems] at h
  | a :: as, b :: bs =>
    simp only [sameItems, Bool.and_eq_true] at h ⊢
    exact ⟨same_symm h.1, sameItems_symm h.2⟩

end

mutual

theorem same_trans {a b c : Cell} (h : a.same b = true) (h' : b.same c = true) :
    a.same c = true := by
  match a with
  | .json v =>
    cases b with
    | json w =>
      cases c with
      | json x =>
        simp only [same, Json.OrderedValue.same] at h h' ⊢
        exact Json.Value.same_trans h h'
      | _ => simp [same] at h'
    | _ => simp [same] at h
  | .array as =>
    cases b with
    | array bs =>
      cases c with
      | array cs =>
        simp only [same] at h h' ⊢
        exact sameItems_trans h h'
      | _ => simp [same] at h'
    | _ => simp [same] at h
  | .null | .boolean _ | .integer _ | .float _ | .decimal _ | .text _ | .date _ | .time _
  | .timestamp _ | .instant _ | .uuid _ | .bytes _ =>
    cases b <;> simp only [same, beq_iff_eq, Bool.false_eq_true] at h
    all_goals
      try subst h
      exact h'

theorem sameItems_trans {as bs cs : List Cell} (h : sameItems as bs = true)
    (h' : sameItems bs cs = true) : sameItems as cs = true := by
  match as, bs, cs with
  | [], [], [] => simp [sameItems]
  | [], _ :: _, _ | _ :: _, [], _ => simp [sameItems] at h
  | [], [], _ :: _ | _ :: _, _ :: _, [] => simp [sameItems] at h'
  | a :: as, b :: bs, c :: cs =>
    simp only [sameItems, Bool.and_eq_true] at h h' ⊢
    exact ⟨same_trans h.1 h'.1, sameItems_trans h.2 h'.2⟩

end

instance : EquivBEq Cell where
  rfl := same_refl _
  symm := same_symm
  trans := same_trans

end Cell

end DraftLedger
