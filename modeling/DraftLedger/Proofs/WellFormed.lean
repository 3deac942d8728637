import DraftLedger.Proofs.KeyUniqueness
import DraftLedger.Proofs.Sample
import DraftLedger.Proofs.Standing

/-!
# Changes are well formed

Every change that a session has is of the form that its kind asks for and points at a row, whatever
was done to get there.  So a change has a statement unless a dialect has no literal for a cell of it.

* `Change.WellFormed` : the form of a change.
* `Change.wellFormed_steady` : nothing that happens to a change takes it away.
* `Change.WellFormed.unsupported` : the only fault that such a change can have.
* `Engine.run_wellFormed` : after every run, all changes are well formed, and nothing else keeps
  scripts from being compiled and applied.
-/

set_option autoImplicit false

namespace DraftLedger

/-! ## Rows that are there -/

/-- There is a row, and it has columns. -/
def Row.Given (row : Option Row) : Prop := ∃ r, row = some r ∧ r.isEmpty = false

namespace Row

variable {row row' : Option Row}

theorem given_iff : Given row ↔ (row.getD Dict.empty).isEmpty = false := by
  cases row with
  | none =>
    constructor
    · rintro ⟨r, none, -⟩
      cases none
    · intro nonempty
      cases nonempty
  | some r =>
    constructor
    · rintro ⟨r', eq, nonempty⟩
      cases eq
      exact nonempty
    · exact fun nonempty => ⟨r, rfl, nonempty⟩

theorem Given.readBack (h : Given row) (reads : Option.Rel Row.ReadsAs row row') : Given row' := by
  obtain ⟨r, rfl, nonempty⟩ := h
  cases reads with
  | some read => exact ⟨_, rfl, read.isEmpty.trans nonempty⟩

theorem isSome_of_reads (reads : Option.Rel Row.ReadsAs row row') : row'.isSome = row.isSome := by
  cases reads <;> rfl

theorem eq_none_of_reads (none : row = none) (reads : Option.Rel Row.ReadsAs row row') :
    row' = .none := by
  cases reads with
  | none => rfl
  | some read => cases none

theorem isEmpty_of_reads (h : ∀ r, row = some r → r.isEmpty = false)
    (reads : Option.Rel Row.ReadsAs row row') : ∀ r, row' = some r → r.isEmpty = false := by
  cases reads with
  | none => exact nofun
  | some read =>
    rintro _ ⟨⟩
    exact read.isEmpty.trans (h _ rfl)

end Row

/-! ## Well-formed changes -/

namespace Change

variable {c c' incoming : Change}

/-- The change has the values that its kind asks for. -/
def Shaped (c : Change) : Prop :=
  match c.kind with
  | .insert => c.oldValues = none ∧ Row.Given c.newValues
  | .update => c.oldValues.isSome = true ∧ Row.Given c.newValues
  | .delete => c.oldValues.isSome = true ∧ c.newValues = none

/-- The change has the form that its kind asks for, no key without columns, and points at a row. -/
structure WellFormed (c : Change) : Prop where
  shaped : c.Shaped
  keyed : ∀ key, c.primaryKey = some key → key.isEmpty = false
  addressed : c.address?.isSome = true

theorem isSome_usableKey?_iff : c.usableKey?.isSome = true ↔ Row.Given c.primaryKey := by
  constructor
  · intro h
    obtain ⟨key, found⟩ := Option.isSome_iff_exists.1 h
    exact ⟨key, usableKey?_eq_some.1 found⟩
  · rintro ⟨key, found⟩
    exact Option.isSome_of_mem (usableKey?_eq_some.2 found)

theorem isSome_address?_iff :
    c.address?.isSome = true ↔ Row.Given c.primaryKey ∨ Row.Given c.knownImage := by
  rw [← isSome_usableKey?_iff]
  unfold address?
  cases c.usableKey? with
  | some key => simp
  | none =>
    cases c.knownImage with
    | none => simp [Row.Given]
    | some image => cases empty : image.isEmpty <;> simp [Row.Given, empty]

theorem isEmpty_currentKey? {now : Row} (h : c.currentKey? = some now) : now.isEmpty = false := by
  cases usable : c.usableKey? with
  | none => simp [currentKey?, usable] at h
  | some own =>
    obtain ⟨now', found, same⟩ := currentKey?_isSome usable
    obtain rfl := Option.some.inj (found.symm.trans h)
    exact same.trans (usableKey?_eq_some.1 usable).2

theorem shaped_insert (h : c.kind = .insert) :
    c.Shaped ↔ c.oldValues = none ∧ Row.Given c.newValues := by
  simp only [Shaped, h]

theorem shaped_update (h : c.kind = .update) :
    c.Shaped ↔ c.oldValues.isSome = true ∧ Row.Given c.newValues := by
  simp only [Shaped, h]

theorem shaped_delete (h : c.kind = .delete) :
    c.Shaped ↔ c.oldValues.isSome = true ∧ c.newValues = none := by
  simp only [Shaped, h]

/-! ## Taking in -/

theorem isSome_withOldValues (h : c.oldValues.isSome = true) (r : Option Row) :
    (c.withOldValues r).oldValues.isSome = true := by
  cases r with
  | none => exact h
  | some values => rfl

theorem given_withOldValues (h : Row.Given c.oldValues) (r : Option Row) :
    Row.Given (c.withOldValues r).oldValues := by
  cases r with
  | none => exact h
  | some values => exact Row.given_iff.2 (Dict.isEmpty_overlay (Row.given_iff.1 h) _)

theorem WellFormed.address?_isSome (h : c.WellFormed) (update : c.kind = .update)
    (noInsertion : c'.kind ≠ .insert) (key : c'.primaryKey = c.primaryKey)
    (old : c'.oldValues = (c.withOldValues incoming.oldValues).oldValues) :
    c'.address?.isSome = true := by
  have image : c'.knownImage = c'.oldValues := by
    unfold knownImage
    split
    · next insertion => exact absurd insertion noInsertion
    · rfl
    · rfl
  have own : c.knownImage = c.oldValues := by simp only [knownImage, update]
  rw [isSome_address?_iff, key, image, old]
  rcases isSome_address?_iff.1 h.addressed with given | given
  · exact .inl given
  · exact .inr (given_withOldValues (own ▸ given) _)

theorem WellFormed.insertAfter (h : c.WellFormed) (insertion : c.kind = .insert) :
    (c.insertAfter incoming).WellFormed := by
  obtain ⟨old, new⟩ := (shaped_insert insertion).1 h.shaped
  have kind : (c.insertAfter incoming).kind = .insert := by simp [insertion]
  have given : Row.Given (c.insertAfter incoming).newValues := by
    rw [Row.given_iff, insertAfter_newValues]
    exact Dict.isEmpty_overlay (Row.given_iff.1 new) _
  refine ⟨(shaped_insert kind).2 ⟨?_, given⟩, fun key hk => isEmpty_currentKey? hk, ?_⟩
  · rw [insertAfter_oldValues, old]
  · refine isSome_address?_iff.2 (.inr ?_)
    simp only [knownImage, kind]
    exact given

theorem WellFormed.updateAfter (h : c.WellFormed) (update : c.kind = .update) :
    (c.updateAfter incoming).WellFormed := by
  obtain ⟨old, new⟩ := (shaped_update update).1 h.shaped
  have kind : (c.updateAfter incoming).kind = .update := by simp [update]
  refine ⟨(shaped_update kind).2 ⟨?_, ?_⟩, ?_, ?_⟩
  · rw [updateAfter_oldValues]
    exact isSome_withOldValues old _
  · rw [Row.given_iff, updateAfter_newValues]
    exact Dict.isEmpty_overlay (Row.given_iff.1 new) _
  · rw [updateAfter_primaryKey]
    exact h.keyed
  · exact h.address?_isSome update (by simp [update]) (updateAfter_primaryKey ..)
      (updateAfter_oldValues ..)

theorem WellFormed.deleteAfter (h : c.WellFormed) (update : c.kind = .update) :
    (c.deleteAfter incoming).WellFormed := by
  obtain ⟨old, -⟩ := (shaped_update update).1 h.shaped
  refine ⟨(shaped_delete rfl).2 ⟨?_, rfl⟩, ?_, ?_⟩
  · rw [deleteAfter_oldValues]
    exact isSome_withOldValues old _
  · rw [deleteAfter_primaryKey]
    exact h.keyed
  · exact h.address?_isSome update (by simp) (deleteAfter_primaryKey ..)
      (deleteAfter_oldValues ..)

/-! ## All that happens to a change -/

theorem WellFormed.readBack (h : c.WellFormed) (reads : c.ReadsAs c') : c'.WellFormed := by
  obtain ⟨-, kind, -, key, old, new⟩ := reads.spec
  have image : Option.Rel Row.ReadsAs c.knownImage c'.knownImage := by
    unfold knownImage
    rw [kind]
    split
    · exact new
    · exact old
    · exact old
  refine ⟨?_, Row.isEmpty_of_reads h.keyed key, ?_⟩
  · have shaped := h.shaped
    unfold Shaped at shaped ⊢
    rw [kind]
    split at shaped
    · exact ⟨Row.eq_none_of_reads shaped.1 old, shaped.2.readBack new⟩
    · exact ⟨(Row.isSome_of_reads old).trans shaped.1, shaped.2.readBack new⟩
    · exact ⟨(Row.isSome_of_reads old).trans shaped.1, Row.eq_none_of_reads shaped.2 new⟩
  · refine isSome_address?_iff.2 ?_
    rcases isSome_address?_iff.1 h.addressed with given | given
    · exact .inl (given.readBack key)
    · exact .inr (given.readBack image)

theorem wellFormed_steady : Steady WellFormed where
  readBack _ _ h reads := h.readBack reads
  assigned c key h insertion nonempty := by
    have shaped := (shaped_insert insertion).1 h.shaped
    refine ⟨(shaped_insert insertion).2 shaped, fun k hk => ?_, ?_⟩
    · cases hk
      exact nonempty
    · exact isSome_address?_iff.2 (.inl ⟨key, rfl, nonempty⟩)
  takenIn c incoming c' outcome h noInsertion takes := by
    rcases takeIn_cases takes noInsertion with
      ⟨-, -, eq, -⟩ | ⟨insertion, -, eq, -⟩ | ⟨update, -, eq, -⟩ | ⟨update, -, eq, -⟩
    · cases eq
    · cases eq
      exact h.insertAfter insertion
    · cases eq
      exact h.deleteAfter update
    · cases eq
      exact h.updateAfter update

end Change

/-! ## New changes -/

namespace Edit

variable {e : Edit} {id : ChangeId} {stamp : Stamp}

theorem check_withRegisteredKey (e : Edit) (keyColumns : KeyColumns) :
    (e.withRegisteredKey keyColumns).check = e.check := by
  rcases e.withRegisteredKey_cases keyColumns with eq | ⟨key, eq⟩
  · rw [eq]
  · rw [eq]
    cases e <;> rfl

theorem toChange_shaped (h : e.check = .ok ()) : (e.toChange id stamp).Shaped := by
  cases e with
  | insert table values key =>
    refine ⟨rfl, values, rfl, ?_⟩
    cases empty : values.isEmpty with
    | false => rfl
    | true => simp [check, empty] at h
  | update table key old new =>
    refine ⟨rfl, new, rfl, ?_⟩
    cases empty : new.isEmpty with
    | false => rfl
    | true => simp [check, empty] at h
  | delete table key old => exact ⟨rfl, rfl⟩

theorem toChange_wellFormed (h : e.check = .ok ())
    (addressed : (e.toChange id stamp).address?.isSome = true) :
    (e.toChange id stamp).WellFormed := by
  refine ⟨toChange_shaped h, fun key hk => ?_, addressed⟩
  have usable : (e.toChange id stamp).usableKey? = some key := by
    rw [toChange_usableKey?]
    exact hk
  exact (Change.usableKey?_eq_some.1 usable).2

end Edit

/-! ## Scripts -/

/-- All that can be wrong with a well-formed change is a cell that the dialect has no literal for. -/
theorem Change.WellFormed.unsupported {c : Change} {d : Dialect} {refusal : Error}
    (h : c.WellFormed) (fault : c.Fault d refusal) :
    ∃ kind cause, refusal = .unsupportedValue d kind cause := by
  cases fault with
  | unsupported kind cause => exact ⟨kind, cause, rfl⟩
  | unaddressed unaddressed =>
    have addressed := h.addressed
    rw [unaddressed] at addressed
    cases addressed
  | nothingToSet update nothing =>
    have given := Row.given_iff.1 ((shaped_update update).1 h.shaped).2
    rw [nothing] at given
    cases given

namespace Engine

variable {e : Engine} {refusal : Error}

theorem generate_error {s : SessionId} {d : Dialect} {scope : Option Table}
    (all : ∀ c ∈ e.ledger.changes s, c.WellFormed)
    (h : (e.generate s d scope).1 = .error refusal) :
    ∃ kind cause, refusal = .unsupportedValue d kind cause := by
  obtain ⟨c, mem, fault⟩ := Script.compile_error h
  exact (all c ((Script.covered_sublist _ _).subset mem)).unsupported fault

theorem startApply_error {request : Apply.Request} {script : Script} {id : ApplyId}
    (all : ∀ c ∈ e.ledger.changes request.session, c.WellFormed)
    (h : (e.startApply request script id).1 = .ended (.error refusal)) :
    refusal = .applyInProgress request.session ∨ refusal = .staleScript request.session ∨
      ∃ kind cause, refusal = .unsupportedValue script.dialect kind cause := by
  have start := e.startApply_cases request script id
  generalize e.startApply request script id = result at start h
  cases start with
  | busy applying =>
    cases h
    exact .inl rfl
  | asked idle => cases h
  | refused idle frozen =>
    cases h
    exact .inl rfl
  | ended idle free answer checked =>
    cases h
    rcases checkCurrent_error (checked refusal rfl) with stale | ⟨c, mem, fault⟩
    · exact .inr (.inl stale)
    · exact .inr (.inr ((all c mem).unsupported fault))
  | waiting idle free => cases h

theorem apply_error {request : Apply.Request} {script : Script} {id : ApplyId}
    (h : (e.apply request script id).1 = .error refusal) :
    (e.startApply request script id).1 = .ended (.error refusal) := by
  unfold apply at h
  split at h
  · next started =>
    rw [started]
    exact congrArg Apply.Progress.ended h
  · cases h

/-! ## Runs -/

theorem perform_wellFormed {m : Move} (space : e.ledger.space = e.settings.storagePrefix)
    (h : e.ledger.Throughout Change.WellFormed) :
    (e.perform m).ledger.Throughout Change.WellFormed := by
  refine (e.perform_turn m).throughout Change.wellFormed_steady space h
    fun s edit id now stamp _ checked _ addressed => ?_
  exact Edit.toChange_wellFormed ((edit.check_withRegisteredKey _).trans checked) addressed

theorem throughout_wellFormed (space : e.ledger.space = e.settings.storagePrefix)
    (h : e.ledger.Throughout Change.WellFormed) (moves : List Move) :
    (e.run moves).ledger.Throughout Change.WellFormed := by
  induction moves generalizing e with
  | nil => exact h
  | cons m rest ih =>
    obtain ⟨settings, space'⟩ := (e.perform_turn m).space space
    exact ih (settings ▸ space') (perform_wellFormed space h)

/-- After every run from an empty store, the changes of all sessions are well formed.  So a script
is refused only for a cell that the dialect has no literal for, and an apply for that, for an apply
under way, or for a script that is not current. -/
theorem run_wellFormed {settings : Settings} {listing : Listing} {database : Database}
    (opened : Engine.opened settings (Store.empty listing) database = .ok e) (moves : List Move) :
    (∀ s, ∀ c ∈ (e.run moves).ledger.changes s, c.WellFormed) ∧
      (∀ s d scope refusal, ((e.run moves).generate s d scope).1 = .error refusal →
        ∃ kind cause, refusal = .unsupportedValue d kind cause) ∧
      ∀ request script id refusal,
        (((e.run moves).startApply request script id).1 = .ended (.error refusal) ∨
          ((e.run moves).apply request script id).1 = .error refusal) →
        refusal = .applyInProgress request.session ∨ refusal = .staleScript request.session ∨
          ∃ kind cause, refusal = .unsupportedValue script.dialect kind cause := by
  have space : e.ledger.space = e.settings.storagePrefix := by
    obtain rfl := opened_eq opened
    rfl
  have all := (throughout_wellFormed space (opened_throughout opened) moves).changes
  refine ⟨all, fun s d scope refusal h => generate_error (all s) h,
    fun request script id refusal h => ?_⟩
  rcases h with started | applied
  · exact startApply_error (all _) started
  · exact startApply_error (all _) (apply_error applied)

end Engine

namespace Sample

open Engine

/-- A row is inserted with a number that is none, and another one is deleted. -/
def misspelling : List Move :=
  [.activate desk,
    .record desk (.insert items (Dict.ofList [("id", .decimal "one")]) none) (id 1) 0,
    .record desk (.delete items none (item 2 "b")) (id 2) 0]

/-- Both changes are well formed, and the number is what keeps them from being compiled. -/
theorem run_wellFormed_misspelling :
    ((engine.run misspelling).ledger.changes desk).map (·.id) = [id 1, id 2] ∧
      (∀ c ∈ (engine.run misspelling).ledger.changes desk, c.WellFormed) ∧
      ((engine.run misspelling).generate desk .postgres none).1 =
        .error (.unsupportedValue .postgres "decimal" (.notDecimal "one")) :=
  ⟨rfl, (run_wellFormed engine_opened misspelling).1 desk, rfl⟩

end Sample

end DraftLedger
