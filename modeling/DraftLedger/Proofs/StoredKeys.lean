import DraftLedger.Proofs.Listing
import DraftLedger.Proofs.TextBytes

/-!
# The keys that both kinds of stores list

A store that walks its keys stops at the first one that does not start with the text; one that is
queried compares the front of every key, counted in characters, and sorts what it finds by bytes.
Both list the same keys.

* `Store.callAll`, `Store.Keeps` : calls in turn, and the keys that are stored after them.
* `Store.mem_keys_foldl` : what is stored, by induction on the calls.
* `Store.walk`, `Store.sortedRows` : the two ways of listing in terms of bytes, with
  `Store.scanKeys_eq_walk` and `Store.sortedRows_eq`.
* `Store.keysWithPrefix_alike` : what both list after any calls.
-/

set_option autoImplicit false

namespace DraftLedger

namespace Store

open Script (utf8)

/-! ## Calls -/

/-- A call that changes a store. -/
inductive Call where
  | set (key value : String)
  | remove (key : String)

/-- What a call makes of the entries. -/
def Call.apply (entries : Dict String String) : Call → Dict String String
  | .set key value => entries.insert key value
  | .remove key => entries.erase key

def call (s : Store) : Call → Except StorageError Store
  | .set key value => s.set key value
  | .remove key => s.remove key

/-- Calls in turn, up to the first one that is turned away. -/
def callAll (s : Store) (calls : List Call) : Except StorageError Store := calls.foldlM call s

/-- The key was set and has not been removed since. -/
def Keeps (calls : List Call) (key : String) : Prop :=
  ∃ front value back, calls = front ++ .set key value :: back ∧ .remove key ∉ back

variable {s : Store} {calls : List Call} {start k : String}

theorem call_eq (answers : s.refusal = none) (c : Call) :
    s.call c = .ok { s with entries := c.apply s.entries } := by
  cases c with
  | set key value => simp only [call, Store.set, answering, answers, Call.apply]
  | remove key => simp only [call, Store.remove, answering, answers, Call.apply]

theorem callAll_eq (answers : s.refusal = none) (calls : List Call) :
    s.callAll calls = .ok { s with entries := calls.foldl Call.apply s.entries } := by
  unfold callAll
  induction calls generalizing s with
  | nil => rfl
  | cons c rest ih =>
    rw [List.foldlM_cons, call_eq answers]
    exact ih (s := { s with entries := c.apply s.entries }) answers

theorem mem_keys_apply (entries : Dict String String) (c : Call) :
    k ∈ (c.apply entries).keys ↔
      (∃ value, c = .set k value) ∨ k ∈ entries.keys ∧ c ≠ .remove k := by
  simp only [Dict.mem_keys_iff]
  cases c with
  | set key value =>
    rw [Call.apply, Dict.get?_insert]
    by_cases same : k = key
    · simp [same]
    · simp [same, Ne.symm same]
  | remove key =>
    rw [Call.apply, Dict.get?_erase]
    by_cases same : k = key
    · simp [same]
    · simp [same, Ne.symm same]

theorem keeps_cons {c : Call} {rest : List Call} :
    Keeps (c :: rest) k ↔ Keeps rest k ∨ (∃ value, c = .set k value) ∧ .remove k ∉ rest := by
  constructor
  · rintro ⟨front, value, back, split, never⟩
    cases front with
    | nil =>
      obtain ⟨rfl, rfl⟩ := List.cons.inj split
      exact .inr ⟨⟨value, rfl⟩, never⟩
    | cons c' front =>
      obtain ⟨rfl, rfl⟩ := List.cons.inj split
      exact .inl ⟨front, value, back, rfl, never⟩
  · rintro (⟨front, value, back, rfl, never⟩ | ⟨⟨value, rfl⟩, never⟩)
    · exact ⟨c :: front, value, back, rfl, never⟩
    · exact ⟨[], value, rest, rfl, never⟩

/-- What is stored after calls is what they keep, and what was stored and they do not remove. -/
theorem mem_keys_foldl (calls : List Call) (entries : Dict String String) :
    k ∈ (calls.foldl Call.apply entries).keys ↔
      Keeps calls k ∨ k ∈ entries.keys ∧ .remove k ∉ calls := by
  induction calls generalizing entries with
  | nil =>
    have none : ¬ Keeps [] k := by
      rintro ⟨front, value, back, split, -⟩
      exact List.append_ne_nil_of_right_ne_nil front (List.cons_ne_nil _ _) split.symm
    simp [none]
  | cons c rest ih =>
    rw [List.foldl_cons, ih, mem_keys_apply, keeps_cons, List.mem_cons]
    grind

/-! ## The two ways of listing, by bytes -/

/-- The keys from `start` on in the order of bytes, as long as their bytes start with those of it. -/
def walk (keys : List String) (start : String) : List String :=
  (keys.dropWhile fun k => utf8 k < utf8 start).takeWhile fun k =>
    (utf8 start).isPrefixOf (utf8 k)

/-- The rows of which the first characters, as many as `start` has, are it byte by byte, in the order
of bytes. -/
def sortedRows (rows : List String) (start : String) : List String :=
  (rows.filter fun k => utf8 (String.ofList (k.toList.take start.length)) = utf8 start).mergeSort
    fun a b => ¬ utf8 b < utf8 a

theorem scanKeys_eq_walk (s : Store) (start : String) :
    s.scanKeys start = walk s.entries.keys start := by
  have below : (fun k : String => decide (k < start)) = fun k => decide (utf8 k < utf8 start) :=
    funext fun k => decide_eq_decide.2 Script.utf8_lt_iff.symm
  have starts : (fun k : String => startsWith k start) =
      fun k => (utf8 start).isPrefixOf (utf8 k) := by
    funext k
    rw [Bool.eq_iff_iff, startsWith_iff, List.isPrefixOf_iff_prefix, Script.utf8_prefix_iff]
  rw [scanKeys, walk, below, starts]

theorem mergeSort_bytes {rows keys : List String} (perm : rows.Perm keys)
    (ascending : keys.Pairwise (· < ·)) :
    (rows.mergeSort fun a b => ¬ utf8 b < utf8 a) = keys := by
  have ordered : ∀ a b : String, decide (¬ utf8 b < utf8 a) = true ↔ a ≤ b := fun a b => by
    rw [decide_eq_true_iff, Script.utf8_lt_iff, String.not_lt]
  have sorted : (rows.mergeSort fun a b => ¬ utf8 b < utf8 a).Pairwise (· ≤ ·) := by
    refine (List.pairwise_mergeSort (fun a b c => ?_) (fun a b => ?_) rows).imp fun {a b} =>
      (ordered a b).1
    · rw [ordered, ordered, ordered]
      exact String.le_trans
    · rw [Bool.or_eq_true, ordered, ordered]
      exact String.le_total a b
  have sorted' : keys.Pairwise (· ≤ ·) := ascending.imp fun {a b} lt =>
    String.not_lt.1 fun gt => String.lt_irrefl a (String.lt_trans lt gt)
  exact ((List.mergeSort_perm rows _).trans perm).eq_of_pairwise
    (fun a b _ _ => String.le_antisymm) sorted sorted'

/-- In whatever order the rows are found, they are listed like the keys. -/
theorem sortedRows_eq {rows : List String} (perm : rows.Perm s.entries.keys) :
    sortedRows rows start = s.entries.keys.filter (startsWith · start) := by
  have front : (fun k : String => decide (utf8 (String.ofList (k.toList.take start.length)) =
      utf8 start)) = fun k => startsWith k start := by
    funext k
    rw [Bool.eq_iff_iff, decide_eq_true_iff, ← take_eq_iff_startsWith, String.length_toList]
    constructor
    · intro same
      have text := congrArg String.toList (Script.utf8_injective same)
      rwa [String.toList_ofList] at text
    · intro same
      rw [same, String.ofList_toList]
  rw [sortedRows, front]
  exact mergeSort_bytes (perm.filter _) (s.keys_ascending.filter _)

/-! ## What both list -/

theorem mem_keys_iff_keeps (calls : List Call) (k : String) :
    k ∈ (calls.foldl Call.apply Dict.empty).keys ↔ Keeps calls k := by
  have none : k ∉ (Dict.empty : Dict String String).keys := List.not_mem_nil
  rw [mem_keys_foldl]
  simp only [none, false_and, or_false]

theorem perm_keys {rows : List String} (nodup : rows.Nodup) (mem : ∀ k, k ∈ rows ↔ k ∈ s.entries.keys) :
    rows.Perm s.entries.keys :=
  (List.perm_ext_iff_of_nodup nodup s.keys_nodup).2 mem

theorem eq_keys {rows : List String} (ascending : rows.Pairwise fun a b => utf8 a < utf8 b)
    (mem : ∀ k, k ∈ rows ↔ k ∈ s.entries.keys) : rows = s.entries.keys := by
  have texts : rows.Pairwise (· < ·) := ascending.imp Script.utf8_lt_iff.1
  have perm := perm_keys (nodup_of_ascending texts) mem
  refine perm.eq_of_pairwise (fun a b _ _ lt gt => ?_) texts s.keys_ascending
  exact absurd (String.lt_trans lt gt) (String.lt_irrefl a)

/-- After any calls, both kinds of stores list the keys that are stored and start with a text without a
NUL character, in ascending order of bytes and hence each once. They are found by a walk over the keys
in that order, and by a query over the keys in any order. -/
theorem keysWithPrefix_alike (calls : List Call) (start : String) (plain : '\x00' ∉ start.toList) :
    ∃ walked queried keys,
      (empty .walk).callAll calls = .ok walked ∧ (empty .query).callAll calls = .ok queried ∧
      walked.keysWithPrefix start = .ok keys ∧ queried.keysWithPrefix start = .ok keys ∧
      keys.Pairwise (fun a b => utf8 a < utf8 b) ∧
      (∀ k, k ∈ keys ↔ Keeps calls k ∧ utf8 start <+: utf8 k) ∧
      (∀ rows, rows.Pairwise (fun a b => utf8 a < utf8 b) → (∀ k, k ∈ rows ↔ Keeps calls k) →
        walk rows start = keys) ∧
      ∀ rows, rows.Nodup → (∀ k, k ∈ rows ↔ Keeps calls k) → sortedRows rows start = keys := by
  let entries := calls.foldl Call.apply Dict.empty
  let walked : Store := ⟨entries, .walk, none⟩
  let queried : Store := ⟨entries, .query, none⟩
  let keys := entries.keys.filter (startsWith · start)
  have stored := mem_keys_iff_keeps calls
  have ascending : entries.keys.Pairwise fun a b => utf8 a < utf8 b :=
    walked.keys_ascending.imp Script.utf8_lt
  refine ⟨walked, queried, keys, callAll_eq rfl calls, callAll_eq rfl calls,
    keysWithPrefix_of_findsAll rfl nofun, keysWithPrefix_of_findsAll rfl fun _ => plain,
    ascending.filter _, fun k => ?_, fun rows sorted mem => ?_, fun rows nodup mem => ?_⟩
  · rw [List.mem_filter, stored, startsWith_iff, Script.utf8_prefix_iff]
  · have all : rows = walked.entries.keys := eq_keys sorted fun k => (mem k).trans (stored k).symm
    rw [all, ← scanKeys_eq_walk, scanKeys_eq]
  · have perm : rows.Perm queried.entries.keys := perm_keys nodup fun k => (mem k).trans (stored k).symm
    exact sortedRows_eq perm

end Store

namespace Sample

open Store.Call (set remove)

/-- Calls about keys beyond ASCII, of which one is set twice and another one removed. In UTF-16 the two
that are listed would change places. -/
def labelled : List Store.Call :=
  [set "p:😀" "1", set "p:\uffff" "2", set "p:a" "3", set "p" "4", remove "p:a", set "q" "5",
    set "p:\uffff" "6"]

theorem keysWithPrefix_alike_labelled :
    '\x00' ∉ "p:".toList ∧
      ∃ walked queried,
        (Store.empty .walk).callAll labelled = .ok walked ∧
        (Store.empty .query).callAll labelled = .ok queried ∧
        walked.keysWithPrefix "p:" = .ok ["p:\uffff", "p:😀"] ∧
        queried.keysWithPrefix "p:" = .ok ["p:\uffff", "p:😀"] := by
  have plain : '\x00' ∉ "p:".toList := by decide
  obtain ⟨walked, queried, keys, ran, ran', listed, listed', -⟩ :=
    Store.keysWithPrefix_alike labelled "p:" plain
  have found : ((Store.empty .walk).callAll labelled).bind (·.keysWithPrefix "p:") =
      .ok ["p:\uffff", "p:😀"] := rfl
  rw [ran] at found
  obtain rfl := Except.ok.inj (listed.symm.trans found)
  exact ⟨plain, walked, queried, ran, ran', listed, listed'⟩

end Sample

end DraftLedger
