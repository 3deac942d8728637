import DraftLedger.Document
import Mathlib.Data.List.Nodup
import Mathlib.Data.List.TakeWhile

/-!
# The keys that a store lists

A walk from a text on finds exactly the keys that start with it, since the keys ascend.  A query does
so unless the text has a NUL character, where it finds nothing.

* `Store.scanKeys_eq`, `Store.selectKeys_eq`, `Store.selectKeys_of_nul` : the two ways of listing.
* `Store.FindsAll`, `Store.keysWithPrefix_of_findsAll` : when both come to the same.
* `Document.storedSessions_of_findsAll`, `Document.storedSessions_of_nul` : the sessions that are
  listed.
-/

set_option autoImplicit false

namespace DraftLedger

/-! ## Texts that start with a text -/

/-- A list that is not below another one and does not start with it is above all that start with it. -/
theorem append_lt_of_not_prefix {p k : List Char} (r : List Char) (above : ¬ k < p)
    (other : ¬ p <+: k) : p ++ r < k := by
  induction p generalizing k with
  | nil => exact absurd List.nil_prefix other
  | cons a p ih =>
    cases k with
    | nil => exact absurd (List.nil_lt_cons a p) above
    | cons b k =>
      rw [List.cons_lt_cons_iff] at above
      rw [List.cons_append, List.cons_lt_cons_iff]
      by_cases same : a = b
      · subst same
        refine .inr ⟨rfl, ih (fun lt => above (.inr ⟨rfl, lt⟩)) fun start => other ?_⟩
        exact List.cons_prefix_cons.2 ⟨rfl, start⟩
      · have notGreater : ¬ b < a := fun gt => above (.inl gt)
        refine .inl (Decidable.byContradiction fun notLess => same ?_)
        exact Char.le_antisymm (Char.not_lt.1 notGreater) (Char.not_lt.1 notLess)

namespace Store

variable {s : Store} {start : String}

theorem startsWith_iff {text start : String} :
    startsWith text start = true ↔ start.toList <+: text.toList :=
  List.isPrefixOf_iff_prefix

/-- A text starts with another one when its first characters, as many as that one has, are that one. -/
theorem take_eq_iff_startsWith {text start : String} :
    text.toList.take start.toList.length = start.toList ↔ startsWith text start = true := by
  rw [startsWith_iff, List.prefix_iff_eq_take, eq_comm]

theorem not_lt_of_startsWith {text start : String} (h : startsWith text start = true) :
    ¬ text < start := by
  obtain ⟨rest, eq⟩ := startsWith_iff.1 h
  intro lt
  have lt' : start.toList ++ rest < start.toList := by
    rw [eq]
    exact lt
  exact absurd lt' (List.not_lt.2 (List.le_append_left))

theorem not_startsWith_of_lt {start k k' : String} (above : ¬ k < start)
    (other : startsWith k start = false) (lt : k < k') : startsWith k' start = false := by
  by_contra h
  rw [Bool.not_eq_false] at h
  obtain ⟨rest, eq⟩ := startsWith_iff.1 h
  have notStart : ¬ start.toList <+: k.toList := by
    intro start'
    rw [startsWith_iff.2 start'] at other
    cases other
  have before : k'.toList < k.toList := by
    rw [← eq]
    exact append_lt_of_not_prefix rest above notStart
  exact String.lt_irrefl k (String.lt_trans lt before)

/-! ## Listing -/

theorem takeWhile_startsWith {keys : List String} (ascending : keys.Pairwise (· < ·))
    (above : ∀ k ∈ keys, ¬ k < start) :
    keys.takeWhile (startsWith · start) = keys.filter (startsWith · start) := by
  induction keys with
  | nil => rfl
  | cons k rest ih =>
    obtain ⟨first, tail⟩ := List.pairwise_cons.1 ascending
    have rest' := ih tail fun k' hk' => above k' (List.mem_cons_of_mem _ hk')
    cases here : startsWith k start with
    | true =>
      rw [List.takeWhile_cons_of_pos (p := (startsWith · start)) here,
        List.filter_cons_of_pos (p := (startsWith · start)) here, rest']
    | false =>
      have none : rest.filter (startsWith · start) = [] := by
        refine List.filter_eq_nil_iff.2 fun k' hk' => ?_
        rw [not_startsWith_of_lt (above k List.mem_cons_self) here (first k' hk')]
        exact Bool.false_ne_true
      rw [List.takeWhile_cons_of_neg (by simp [here]), List.filter_cons_of_neg (by simp [here]), none]

theorem scan_startsWith {keys : List String} (ascending : keys.Pairwise (· < ·)) :
    (keys.dropWhile fun k => k < start).takeWhile (startsWith · start) =
      keys.filter (startsWith · start) := by
  induction keys with
  | nil => rfl
  | cons k rest ih =>
    obtain ⟨first, tail⟩ := List.pairwise_cons.1 ascending
    by_cases below : k < start
    · have here : ¬ startsWith k start = true := fun h => not_lt_of_startsWith h below
      rw [List.dropWhile_cons_of_pos (by simpa using below),
        List.filter_cons_of_neg (p := (startsWith · start)) here, ih tail]
    · rw [List.dropWhile_cons_of_neg (by simpa using below)]
      refine takeWhile_startsWith ascending fun k' hk' => ?_
      rcases List.mem_cons.1 hk' with rfl | later
      · exact below
      · exact fun lt => below (String.lt_trans (first k' later) lt)

theorem keys_ascending (s : Store) : s.entries.keys.Pairwise (· < ·) :=
  List.pairwise_map.2 s.entries.ascending

theorem nodup_of_ascending {keys : List String} (ascending : keys.Pairwise (· < ·)) :
    keys.Nodup := by
  refine ascending.imp ?_
  rintro a b lt rfl
  exact String.lt_irrefl a lt

theorem keys_nodup (s : Store) : s.entries.keys.Nodup := nodup_of_ascending s.keys_ascending

theorem scanKeys_eq (s : Store) (start : String) :
    s.scanKeys start = s.entries.keys.filter (startsWith · start) :=
  scan_startsWith s.keys_ascending

theorem selectKeys_eq (plain : '\x00' ∉ start.toList) :
    s.selectKeys start = s.entries.keys.filter (startsWith · start) := by
  have whole : start.toList.takeWhile (fun c => c ≠ '\x00') = start.toList := by
    refine List.takeWhile_eq_self_iff.2 fun c hc => ?_
    have differ : c ≠ '\x00' := fun nul => plain (nul ▸ hc)
    simpa using differ
  unfold selectKeys
  simp only [whole]
  refine List.filter_congr fun k _ => ?_
  rw [Bool.eq_iff_iff, decide_eq_true_iff]
  exact take_eq_iff_startsWith

/-- A query compares fewer characters than there are in a text with a NUL, so no key is equal. -/
theorem selectKeys_of_nul (s : Store) (nul : '\x00' ∈ start.toList) : s.selectKeys start = [] := by
  have shorter : (start.toList.takeWhile fun c => c ≠ '\x00').length < start.toList.length := by
    refine Nat.lt_of_le_of_ne (List.takeWhile_prefix _).length_le fun same => ?_
    have whole := (List.takeWhile_prefix fun c : Char => c ≠ '\x00').eq_of_length same
    have differ := List.takeWhile_eq_self_iff.1 whole _ nul
    simp at differ
  refine List.filter_eq_nil_iff.2 fun k _ => ?_
  have differ : k.toList.take (start.toList.takeWhile fun c => c ≠ '\x00').length ≠
      start.toList := by
    intro eq
    have length := congrArg List.length eq
    rw [List.length_take] at length
    omega
  simpa using differ

/-- The store finds all keys that start with a text. -/
def FindsAll (s : Store) (start : String) : Prop := s.listing = .query → '\x00' ∉ start.toList

theorem keysWithPrefix_of_findsAll (answers : s.refusal = none) (finds : s.FindsAll start) :
    s.keysWithPrefix start = .ok (s.entries.keys.filter (startsWith · start)) := by
  unfold keysWithPrefix answering
  rw [answers]
  cases listing : s.listing with
  | walk => exact congrArg Except.ok (s.scanKeys_eq start)
  | query => exact congrArg Except.ok (selectKeys_eq (finds listing))

theorem keysWithPrefix_of_nul (answers : s.refusal = none) (query : s.listing = .query)
    (nul : '\x00' ∈ start.toList) : s.keysWithPrefix start = .ok [] := by
  unfold keysWithPrefix answering
  rw [answers, query]
  exact congrArg Except.ok (s.selectKeys_of_nul nul)

end Store

/-! ## Listed sessions -/

theorem Dict.mem_keys_iff {κ ν : Type} [LinearKey κ] {d : Dict κ ν} {k : κ} :
    k ∈ d.keys ↔ (d.get? k).isSome = true := by
  unfold Dict.keys Dict.get?
  induction d.entries with
  | nil => simp [lookup]
  | cons e rest ih =>
    obtain ⟨k', v⟩ := e
    by_cases same : k = k'
    · simp [lookup, same]
    · simpa [lookup, same] using ih

namespace Document

variable {store : Store} {space : String} {s : SessionId}

/-- The session that a key under which documents stand is about. -/
def sessionOf (space key : String) : SessionId :=
  ⟨String.ofList (key.toList.drop (keyPrefix space).length)⟩

theorem sessionOf_key (space : String) (s : SessionId) : sessionOf space (key space s) = s := by
  obtain ⟨name⟩ := s
  have rest : (key space ⟨name⟩).toList.drop (keyPrefix space).length = name.toList := by
    simp [key, String.toList_append, ← String.length_toList]
  rw [sessionOf, rest, String.ofList_toList]

theorem key_sessionOf {k : String} (h : Store.startsWith k (keyPrefix space) = true) :
    key space (sessionOf space k) = k := by
  obtain ⟨rest, eq⟩ := Store.startsWith_iff.1 h
  have name : k.toList.drop (keyPrefix space).length = rest := by
    rw [← eq, ← String.length_toList, List.drop_left]
  have whole : (key space (sessionOf space k)).toList = k.toList := by
    rw [key, sessionOf, name, String.toList_append, String.toList_ofList, eq]
  exact String.toList_injective whole

theorem startsWith_key (space : String) (s : SessionId) :
    Store.startsWith (key space s) (keyPrefix space) = true := by
  rw [Store.startsWith_iff, key, String.toList_append]
  exact List.prefix_append _ _

/-- A store that finds all keys lists every session with a document once, and no other one. -/
theorem storedSessions_of_findsAll (answers : store.refusal = none)
    (finds : store.FindsAll (keyPrefix space)) :
    ∃ sessions, storedSessions store space = .ok sessions ∧ sessions.Nodup ∧
      ∀ s, s ∈ sessions ↔ (store.entries.get? (key space s)).isSome = true := by
  let keys := store.entries.keys.filter (Store.startsWith · (keyPrefix space))
  have listed : storedSessions store space = .ok (keys.map (sessionOf space)) := by
    rw [storedSessions, Store.keysWithPrefix_of_findsAll answers finds]
    rfl
  have back : ∀ k ∈ keys, key space (sessionOf space k) = k := fun k hk =>
    key_sessionOf (List.mem_filter.1 hk).2
  refine ⟨_, listed, ?_, fun s => ?_⟩
  · refine (store.keys_nodup.filter _).map_on fun a ha b hb same => ?_
    rw [← back a ha, ← back b hb, same]
  · rw [← Dict.mem_keys_iff, List.mem_map]
    constructor
    · rintro ⟨k, hk, rfl⟩
      rw [back k hk]
      exact (List.mem_filter.1 hk).1
    · intro mem
      exact ⟨key space s, List.mem_filter.2 ⟨mem, startsWith_key space s⟩, sessionOf_key space s⟩

/-- A query lists no session when the keys start with a text that has a NUL. -/
theorem storedSessions_of_nul (answers : store.refusal = none) (query : store.listing = .query)
    (nul : '\x00' ∈ (keyPrefix space).toList) : storedSessions store space = .ok [] := by
  rw [storedSessions, Store.keysWithPrefix_of_nul answers query nul]
  rfl

end Document

end DraftLedger
