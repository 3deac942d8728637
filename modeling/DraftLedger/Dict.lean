/-!
# Dictionaries in key order

A dictionary is a list of entries whose keys strictly ascend, so two dictionaries with the same
look-ups are the same list, and walking one visits the keys in order.

* `LinearKey` : what a key type must offer, a decidable strict linear order.
* `Dict` : the entries with their order.
* `Dict.get?`, `Dict.insert`, `Dict.erase`, `Dict.overlay`, `Dict.ofList`.
* `Dict.get?_insert`, `Dict.get?_erase`, `Dict.get?_overlay`, `Dict.ext_get?` : the view through
  `get?` determines everything.
-/

set_option autoImplicit false

namespace DraftLedger

/-- A key type with a decidable strict linear order. -/
class LinearKey (κ : Type) extends LT κ where
  decLT : DecidableLT κ
  decEq : DecidableEq κ
  irrefl : ∀ a : κ, ¬ a < a
  trans : ∀ {a b c : κ}, a < b → b < c → a < c
  connected : ∀ {a b : κ}, ¬ a < b → ¬ b < a → a = b

instance LinearKey.decidableLT (κ : Type) [LinearKey κ] : DecidableLT κ := LinearKey.decLT

instance LinearKey.decidableEq (κ : Type) [LinearKey κ] : DecidableEq κ := LinearKey.decEq

/-- Texts are ordered by code points, which is also the order of their UTF-8 bytes. -/
instance : LinearKey String where
  decLT := inferInstance
  decEq := inferInstance
  irrefl := String.lt_irrefl
  trans := String.lt_trans
  connected h h' := String.le_antisymm h' h

/-- Entries whose keys strictly ascend. -/
structure Dict (κ ν : Type) [LinearKey κ] where
  entries : List (κ × ν)
  ascending : entries.Pairwise fun a b => a.1 < b.1

namespace Dict

variable {κ ν : Type} [LinearKey κ]

/-! ## Entry lists -/

/-- The value that a list of entries gives to a key. -/
def lookup (k : κ) : List (κ × ν) → Option ν
  | [] => none
  | (k', v) :: rest => if k = k' then some v else lookup k rest

/-- Puts an entry in its place in ascending order, replacing one with the same key. -/
def insertEntry (k : κ) (v : ν) : List (κ × ν) → List (κ × ν)
  | [] => [(k, v)]
  | (k', v') :: rest =>
    if k < k' then (k, v) :: (k', v') :: rest
    else if k = k' then (k, v) :: rest
    else (k', v') :: insertEntry k v rest

theorem mem_insertEntry {k : κ} {v : ν} {e : κ × ν} {l : List (κ × ν)}
    (h : e ∈ insertEntry k v l) : e = (k, v) ∨ e ∈ l := by
  induction l with
  | nil => exact .inl (by simpa [insertEntry] using h)
  | cons hd rest ih =>
    obtain ⟨k', v'⟩ := hd
    unfold insertEntry at h
    split at h
    · simpa using h
    · split at h
      · rcases List.mem_cons.1 h with h | h
        · exact .inl h
        · exact .inr (List.mem_cons_of_mem _ h)
      · rcases List.mem_cons.1 h with h | h
        · exact .inr (h ▸ List.mem_cons_self)
        · exact (ih h).imp id (List.mem_cons_of_mem _)

theorem insertEntry_ascending (k : κ) (v : ν) {l : List (κ × ν)}
    (h : l.Pairwise fun a b => a.1 < b.1) :
    (insertEntry k v l).Pairwise fun a b => a.1 < b.1 := by
  induction l with
  | nil => simp [insertEntry]
  | cons hd rest ih =>
    obtain ⟨k', v'⟩ := hd
    obtain ⟨first, tail⟩ := List.pairwise_cons.1 h
    unfold insertEntry
    split
    · next lt =>
      refine List.pairwise_cons.2 ⟨fun e he => ?_, h⟩
      rcases List.mem_cons.1 he with rfl | he
      · exact lt
      · exact LinearKey.trans lt (first e he)
    · next notLt =>
      split
      · next same => subst same; exact List.pairwise_cons.2 ⟨first, tail⟩
      · next differ =>
        have gt : k' < k := by
          by_cases g : k' < k
          · exact g
          · exact absurd (LinearKey.connected notLt g) differ
        refine List.pairwise_cons.2 ⟨fun e he => ?_, ih tail⟩
        rcases mem_insertEntry he with rfl | he
        · exact gt
        · exact first e he

theorem lookup_insertEntry (k q : κ) (v : ν) (l : List (κ × ν)) :
    lookup q (insertEntry k v l) = if q = k then some v else lookup q l := by
  induction l with
  | nil => simp [insertEntry, lookup]
  | cons hd rest ih =>
    obtain ⟨k', v'⟩ := hd
    unfold insertEntry
    split
    · rfl
    · split
      · next same => subst same; by_cases h : q = k <;> simp [lookup, h]
      · next differ =>
        by_cases h : q = k'
        · subst h; simp [lookup, Ne.symm differ]
        · simp [lookup, h, ih]

theorem lookup_eq_none_of_lt {q : κ} {l : List (κ × ν)} (h : ∀ e ∈ l, q < e.1) :
    lookup q l = none := by
  induction l with
  | nil => rfl
  | cons hd rest ih =>
    obtain ⟨k', v'⟩ := hd
    have lt : q < k' := h (k', v') List.mem_cons_self
    have ne : q ≠ k' := fun same => LinearKey.irrefl k' (same ▸ lt)
    simp [lookup, ne, ih fun e he => h e (List.mem_cons_of_mem _ he)]

theorem lookup_filter_ne (k q : κ) (l : List (κ × ν)) :
    lookup q (l.filter fun e => e.1 ≠ k) = if q = k then none else lookup q l := by
  induction l with
  | nil => simp [lookup]
  | cons hd rest ih =>
    obtain ⟨k', v'⟩ := hd
    by_cases same : k' = k
    · subst same
      by_cases h : q = k'
      · simpa [h, lookup] using ih
      · simpa [h, lookup] using ih
    · by_cases h : q = k'
      · subst h; simp [same, lookup]
      · simpa [same, h, lookup] using ih

/-! ## Operations -/

def empty : Dict κ ν := ⟨[], List.Pairwise.nil⟩

instance : Inhabited (Dict κ ν) := ⟨empty⟩

def get? (d : Dict κ ν) (k : κ) : Option ν := lookup k d.entries

def contains (d : Dict κ ν) (k : κ) : Bool := (d.get? k).isSome

/-- Gives the key this value, whatever it had before. -/
def insert (d : Dict κ ν) (k : κ) (v : ν) : Dict κ ν :=
  ⟨insertEntry k v d.entries, insertEntry_ascending k v d.ascending⟩

def erase (d : Dict κ ν) (k : κ) : Dict κ ν :=
  ⟨d.entries.filter fun e => e.1 ≠ k, d.ascending.filter _⟩

/-- The keys in ascending order. -/
def keys (d : Dict κ ν) : List κ := d.entries.map (·.1)

/-- The values in the order of their keys. -/
def values (d : Dict κ ν) : List ν := d.entries.map (·.2)

def isEmpty (d : Dict κ ν) : Bool := d.entries.isEmpty

def size (d : Dict κ ν) : Nat := d.entries.length

/-- The entries of a list, a later one replacing an earlier one with the same key. -/
def ofList (l : List (κ × ν)) : Dict κ ν := l.foldl (fun d e => d.insert e.1 e.2) empty

/-- The entries of `upper` laid over those of `d`. -/
def overlay (d upper : Dict κ ν) : Dict κ ν :=
  upper.entries.foldl (fun acc e => acc.insert e.1 e.2) d

/-- The entries whose key and value pass the test. -/
def filter (d : Dict κ ν) (p : κ → ν → Bool) : Dict κ ν :=
  ⟨d.entries.filter fun e => p e.1 e.2, d.ascending.filter _⟩

def mapValues {μ : Type} (d : Dict κ ν) (f : κ → ν → μ) : Dict κ μ where
  entries := d.entries.map fun e => (e.1, f e.1 e.2)
  ascending := List.pairwise_map.2 d.ascending

/-- Equality of values, key by key. -/
protected def beq [BEq ν] (a b : Dict κ ν) : Bool := a.entries == b.entries

instance [BEq ν] : BEq (Dict κ ν) := ⟨Dict.beq⟩

/-! ## What `get?` sees -/

@[simp] theorem get?_empty (k : κ) : (empty : Dict κ ν).get? k = none := rfl

theorem get?_insert (d : Dict κ ν) (k q : κ) (v : ν) :
    (d.insert k v).get? q = if q = k then some v else d.get? q :=
  lookup_insertEntry k q v d.entries

@[simp] theorem get?_insert_self (d : Dict κ ν) (k : κ) (v : ν) :
    (d.insert k v).get? k = some v := by simp [get?_insert]

theorem get?_insert_of_ne (d : Dict κ ν) {k q : κ} (v : ν) (h : q ≠ k) :
    (d.insert k v).get? q = d.get? q := by simp [get?_insert, h]

theorem get?_erase (d : Dict κ ν) (k q : κ) :
    (d.erase k).get? q = if q = k then none else d.get? q :=
  lookup_filter_ne k q d.entries

theorem get?_foldl_insert {l : List (κ × ν)} (h : l.Pairwise fun a b => a.1 < b.1)
    (d : Dict κ ν) (q : κ) :
    (l.foldl (fun acc e => acc.insert e.1 e.2) d).get? q = (lookup q l).or (d.get? q) := by
  induction l generalizing d with
  | nil => simp [lookup]
  | cons hd rest ih =>
    obtain ⟨k, v⟩ := hd
    obtain ⟨first, tail⟩ := List.pairwise_cons.1 h
    rw [List.foldl_cons, ih tail]
    by_cases same : q = k
    · subst same
      rw [lookup_eq_none_of_lt first]
      simp [lookup]
    · simp [lookup, same, get?_insert_of_ne]

/-- Where both have a value, the upper one wins. -/
theorem get?_overlay (d upper : Dict κ ν) (q : κ) :
    (d.overlay upper).get? q = (upper.get? q).or (d.get? q) :=
  get?_foldl_insert upper.ascending d q

/-- Dictionaries with the same look-ups are equal. -/
theorem ext_get? {a b : Dict κ ν} (h : ∀ k, a.get? k = b.get? k) : a = b := by
  obtain ⟨l, hl⟩ := a
  obtain ⟨m, hm⟩ := b
  have same : l = m := by
    simp only [get?] at h
    induction l generalizing m with
    | nil =>
      cases m with
      | nil => rfl
      | cons e m => simpa [lookup] using h e.1
    | cons d l ih =>
      cases m with
      | nil => simpa [lookup] using h d.1
      | cons e m =>
        obtain ⟨k, v⟩ := d
        obtain ⟨k', v'⟩ := e
        obtain ⟨lfirst, ltail⟩ := List.pairwise_cons.1 hl
        obtain ⟨mfirst, mtail⟩ := List.pairwise_cons.1 hm
        have lhead : ∀ {q : κ}, q < k → lookup q ((k, v) :: l) = none := fun lt =>
          lookup_eq_none_of_lt fun e he => by
            rcases List.mem_cons.1 he with rfl | he
            · exact lt
            · exact LinearKey.trans lt (lfirst e he)
        have mhead : ∀ {q : κ}, q < k' → lookup q ((k', v') :: m) = none := fun lt =>
          lookup_eq_none_of_lt fun e he => by
            rcases List.mem_cons.1 he with rfl | he
            · exact lt
            · exact LinearKey.trans lt (mfirst e he)
        have keys : k = k' := by
          apply LinearKey.connected
          · intro lt; have := h k; rw [mhead lt] at this; simp [lookup] at this
          · intro lt; have := h k'; rw [lhead lt] at this; simp [lookup] at this
        subst keys
        have vals : v = v' := by simpa [lookup] using h k
        subst vals
        have rest : l = m := by
          apply ih ltail m mtail
          intro q
          by_cases hq : q = k
          · subst hq
            rw [lookup_eq_none_of_lt lfirst, lookup_eq_none_of_lt mfirst]
          · simpa [lookup, hq] using h q
        rw [rest]
  subst same
  rfl

end Dict

end DraftLedger
