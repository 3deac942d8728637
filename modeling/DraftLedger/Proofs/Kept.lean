import DraftLedger.Proofs.Documents
import DraftLedger.Proofs.LedgerView

/-!
# What the store keeps of the sessions

* `Ledger.raw?`, `Ledger.kept?` : the text of a session in the store, and its document as it is
  read back.
* `Ledger.recovered_eq` : a session that is not in memory is what the store keeps of it, if the store
  answers.
* `Ledger.kept?_written` : what the store keeps after a session has been written.
-/

set_option autoImplicit false

namespace DraftLedger.Ledger

variable {l l' : Ledger} {s t : SessionId} {d : Document}

/-- The text that the store has under the key of a session. -/
def raw? (l : Ledger) (s : SessionId) : Option String :=
  l.store.entries.get? (Document.key l.space s)

theorem raw?_congr (space : l'.space = l.space) (store : l'.store = l.store) (s : SessionId) :
    l'.raw? s = l.raw? s := by
  simp only [Ledger.raw?, space, store]

/-- The document that the store has of a session, if it can be read back. -/
def kept? (l : Ledger) (s : SessionId) : Option Document :=
  match l.store.entries.get? (Document.key l.space s) with
  | some raw => (Document.decode (Document.key l.space s) raw s).toOption
  | none => none

/-- The changes that the store has of a session. -/
def keptChanges (l : Ledger) (s : SessionId) : List Change :=
  ((l.kept? s).map Document.changes).getD []

theorem kept?_congr (space : l'.space = l.space) (store : l'.store = l.store)
    (s : SessionId) : l'.kept? s = l.kept? s := by
  simp only [kept?, space, store]

theorem keptChanges_congr (space : l'.space = l.space) (store : l'.store = l.store)
    (s : SessionId) : l'.keptChanges s = l.keptChanges s := by
  simp only [keptChanges, kept?_congr space store]

/-- A recovered session is the one of its document, unless the store does not answer. -/
theorem recovered_eq (l : Ledger) (s : SessionId) :
    l.recovered s =
      if l.store.refusal = none then
        ((l.kept? s).map fun d => ⟨d.active, false, d.changes⟩).getD Session.vacant
      else Session.vacant := by
  unfold recovered Document.load Store.get Store.answering kept?
  cases l.store.refusal with
  | some reason => rfl
  | none =>
    cases l.store.entries.get? (Document.key l.space s) with
    | none => rfl
    | some raw =>
      cases decoded : Document.decode (Document.key l.space s) raw s <;>
        simp [decoded, Except.map, Except.toOption]

theorem recovered_of_refused {raw : String} {error : StorageError} (entry : l.raw? s = some raw)
    (refused : Document.decode (Document.key l.space s) raw s = .error error) :
    l.recovered s = Session.vacant := by
  have entry : l.store.entries.get? (Document.key l.space s) = some raw := entry
  have none : l.kept? s = none := by simp only [kept?, entry, refused, Except.toOption]
  rw [recovered_eq, none]
  split <;> rfl

theorem recovered_changes (l : Ledger) (s : SessionId) :
    (l.recovered s).changes = if l.store.refusal = none then l.keptChanges s else [] := by
  rw [recovered_eq, keptChanges]
  split
  · cases l.kept? s <;> rfl
  · rfl

theorem mem_keptChanges_of_absent {c : Change} (absent : l.sessions.get? s = none)
    (hc : c ∈ l.changes s) : c ∈ l.keptChanges s := by
  rw [changes, session, absent, recovered_changes] at hc
  split at hc
  · exact hc
  · cases hc

theorem recovered_frozen (l : Ledger) (s : SessionId) : (l.recovered s).frozen = false := by
  rw [recovered_eq]
  split
  · cases l.kept? s <;> rfl
  · rfl

theorem Loaded.kept? (h : l.Loaded l') (s : SessionId) : l'.kept? s = l.kept? s :=
  kept?_congr h.space h.store s

theorem raw?_written_of_ne (x : Session) (other : t ≠ s) :
    (l.written s x).raw? t = l.raw? t := by
  obtain ⟨store, eq, -, -, others⟩ := persist_eq (l.put s x) s
  have elsewhere : Document.key l.space t ≠ Document.key l.space s :=
    fun same => other (Document.key_inj same)
  rw [written, eq]
  exact others _ elsewhere

theorem kept?_written_of_ne (x : Session) (other : t ≠ s) :
    (l.written s x).kept? t = l.kept? t := by
  have entry : (l.written s x).store.entries.get? (Document.key l.space t) =
      l.store.entries.get? (Document.key l.space t) := by
    have same := raw?_written_of_ne (l := l) x other
    rwa [Ledger.raw?, space_written] at same
  simp only [kept?, space_written, entry]

/-- The text under the key of a session that has been written: none if there is nothing worth keeping,
else its document, and what was there before if the store does not take it. -/
theorem entry_written (x : Session) :
    (l.written s x).store.entries.get? (Document.key l.space s) =
      if l.store.refusal = none then
        if !x.active && x.changes.isEmpty then none
        else some (Document.current s x.active x.changes).render
      else l.store.entries.get? (Document.key l.space s) := by
  have self : (l.put s x).session s = x := by simp [session, put]
  have store : (l.put s x).store = l.store := rfl
  have space : (l.put s x).space = l.space := rfl
  unfold written persist
  simp only [self, store, space, Document.save, Store.remove, Store.set, Store.answering]
  cases l.store.refusal with
  | some reason => simp [store]
  | none =>
    have session : (Document.current s x.active x.changes).session = s := rfl
    by_cases nothing : (!x.active && x.changes.isEmpty) = true
    · have nothing' : (!(Document.current s x.active x.changes).active &&
          (Document.current s x.active x.changes).changes.isEmpty) = true := nothing
      simp only [nothing', nothing, if_true, session, Dict.get?_erase]
    · have something : ¬ (!(Document.current s x.active x.changes).active &&
          (Document.current s x.active x.changes).changes.isEmpty) = true := nothing
      simp only [something, nothing, Bool.false_eq_true, if_false, if_true, session,
        Dict.get?_insert_self]

theorem decode_eq_ok {key raw : String} (h : Document.decode key raw s = .ok d) :
    Document.read? raw = some d := by
  unfold Document.decode at h
  split at h
  · cases h
  · next read =>
    split at h
    · cases h
    · split at h
      · cases h
      · cases h
        exact read

theorem read?_of_kept? {raw : String} (h : l.kept? s = some d)
    (entry : l.store.entries.get? (Document.key l.space s) = some raw) :
    Document.read? raw = some d := by
  simp only [kept?, entry] at h
  cases decoded : Document.decode (Document.key l.space s) raw s with
  | error e => rw [decoded] at h; cases h
  | ok d' =>
    rw [decoded] at h
    cases h
    exact decode_eq_ok decoded

/-- What the store keeps of a session that has been written is read back from the document of that
session, or is what the store had and would not give up. -/
theorem kept?_written (x : Session) (h : (l.written s x).kept? s = some d) :
    (l.store.refusal ≠ none ∧ l.kept? s = some d) ∨
      (l.store.refusal = none ∧ d.active = x.active ∧
        List.Forall₂ Change.ReadsAs x.changes d.changes) := by
  have entry := entry_written (l := l) (s := s) x
  by_cases answers : l.store.refusal = none
  · rw [if_pos answers] at entry
    split at entry
    · simp [kept?, entry] at h
    · obtain ⟨-, active, changes⟩ :=
        Document.changes_of_read? (read?_of_kept? h (by simpa using entry))
      exact .inr ⟨answers, active, changes⟩
  · rw [if_neg answers] at entry
    exact .inl ⟨answers, by simpa [kept?, entry] using h⟩

/-- A store that answers has no change of a session that was written without any. -/
theorem keptChanges_written_nil {x : Session} (answers : l.store.refusal = none)
    (empty : x.changes = []) : (l.written s x).keptChanges s = [] := by
  cases kept : (l.written s x).kept? s with
  | none => simp [keptChanges, kept]
  | some d =>
    rcases kept?_written x kept with ⟨refused, -⟩ | ⟨-, -, read⟩
    · exact absurd answers refused
    · rw [empty, List.forall₂_nil_left_iff] at read
      simp [keptChanges, kept, read]

end DraftLedger.Ledger
