import DraftLedger.Proofs.Conditions
import Mathlib.Data.List.Induction

/-!
# What a script warns of

A script comes with advice: on each change, then on insertions that nothing tells apart, then on its
length.  Insertions are counted one after another, each with the first one of its like, so that every
class of equal rows is mentioned once, where its first member stands, and with its exact size.

* `Change.Twins` : insertions that nothing tells apart.
* `Script.Advised` : the advice about a list of changes.
* `Script.countInserts_known`, `Script.countInserts_new` : how one more insertion is counted.
* `Script.exists_firsts` : the loop over the changes.
* `Script.compile_advised` : the warnings of a compiled script.
-/

set_option autoImplicit false

namespace DraftLedger

/-! ## Changes that call for advice -/

namespace Change

variable {a b c : Change} {column : String}

def Rekeys (c : Change) (column : String) : Prop :=
  c.kind = .update ∧ ∃ key new old value, c.primaryKey = some key ∧ c.newValues = some new ∧
    key.get? column = some old ∧ new.get? column = some value ∧ (value == old) = false

/-- The change inserts this row without a key. -/
def Puts (c : Change) (row : Row) : Prop :=
  c.kind = .insert ∧ ¬ Row.Given c.primaryKey ∧ c.newValues = some row

/-- Both changes insert equal rows into one table, without keys. An insertion without a row is like
nothing. -/
def Twins (a b : Change) : Prop :=
  a.table = b.table ∧ ∃ v w, a.Puts v ∧ b.Puts w ∧ (v == w) = true

end Change

/-! ## Advice -/

inductive Advice where
  | fullRow (c : Change)
  | rekey (c : Change) (columns : List String)
  | twins (first : Change) (count : Nat)
  | long (count threshold : Nat)

def Advice.text : Advice → String
  | fullRow c =>
    c.kind.name ++ " on " ++ c.table.displayName ++
      " has no primary key and matches its row by every column; " ++
      "identical rows would all be affected"
  | rekey c columns =>
    "update on " ++ c.table.displayName ++ " changes key column(s) " ++ Sql.commaSeparated columns
  | twins first count =>
    String.ofList (Text.decimal count) ++ " identical inserts staged for " ++
      first.table.displayName ++ " without a key; they cannot be told apart"
  | long count threshold =>
    "script has " ++ String.ofList (Text.decimal count) ++
      " statements, above the review threshold of " ++ String.ofList (Text.decimal threshold)

namespace Change

variable {a b c : Change} {column : String}

/-- The advice on one change: that its row is found by all columns, if it is an update or a deletion
without a key, and then which columns of its key get other values, in their order, if any do. -/
def Advises (c : Change) (advice : List Advice) : Prop :=
  ∃ columns : List String, columns.Pairwise (· < ·) ∧ (∀ column, column ∈ columns ↔ c.Rekeys column) ∧
    advice = (if c.kind ≠ .insert ∧ ¬ Row.Given c.primaryKey then [.fullRow c] else []) ++
      if columns = [] then [] else [.rekey c columns]

theorem pairwise_rekeyedColumns (c : Change) :
    (Script.rekeyedColumns c).Pairwise (· < ·) := by
  unfold Script.rekeyedColumns
  split
  · next key new _ _ _ => exact (key.ascending.filter _).map _ fun _ _ less => less
  · exact .nil

theorem mem_rekeyedColumns : column ∈ Script.rekeyedColumns c ↔ c.Rekeys column := by
  unfold Script.rekeyedColumns Rekeys
  split
  · next key new kind hk hn =>
    simp only [List.mem_map, List.mem_filter, kind, hk, hn, Option.some.injEq, true_and]
    constructor
    · rintro ⟨⟨column, old⟩, ⟨mem, differ⟩, rfl⟩
      have old_ := Dict.mem_entries.1 mem
      cases found : new.get? column with
      | none => simp [found] at differ
      | some value =>
        exact ⟨key, new, old, value, rfl, rfl, old_, found, by simpa [found, bne] using differ⟩
    · rintro ⟨_, _, old, value, rfl, rfl, old_, found, differ⟩
      refine ⟨(column, old), ⟨Dict.mem_entries.2 old_, ?_⟩, rfl⟩
      simp [found, bne, differ]
  · next other =>
    constructor
    · exact fun h => absurd h List.not_mem_nil
    · rintro ⟨kind, key, new, -, -, hk, hn, -⟩
      exact absurd hn (other key new kind hk)

theorem changeWarnings_eq (c : Change) :
    ∃ advice, c.Advises advice ∧ Script.changeWarnings c = advice.map Advice.text := by
  refine ⟨_, ⟨Script.rekeyedColumns c, pairwise_rekeyedColumns c, fun _ => mem_rekeyedColumns, rfl⟩, ?_⟩
  unfold Script.changeWarnings
  rw [List.map_append]
  congr 1
  · by_cases full : c.kind ≠ .insert ∧ ¬ Row.Given c.primaryKey
    · rw [if_pos (isFullRowChange_iff.2 full), if_pos full]
      rfl
    · rw [if_neg (isFullRowChange_iff.not.2 full), if_neg full]
      rfl
  · cases Script.rekeyedColumns c with
    | nil => rfl
    | cons column rest => rfl

/-! ## Insertions that nothing tells apart -/

theorem exists_puts_iff : (∃ row, c.Puts row) ↔ Script.isAnonymousInsert c = true := by
  simp only [Puts, Script.isAnonymousInsert, Bool.and_eq_true, decide_eq_true_iff,
    isFullRowAddressed_iff, Option.isSome_iff_exists, exists_and_left, and_assoc]

theorem twins_iff : a.Twins b ↔
    Script.isAnonymousInsert a = true ∧ Script.isAnonymousInsert b = true ∧
      Script.sameRow a b = true := by
  rw [← exists_puts_iff, ← exists_puts_iff, Script.sameRow, Bool.and_eq_true, decide_eq_true_iff]
  constructor
  · rintro ⟨tables, v, w, hv, hw, same⟩
    exact ⟨⟨v, hv⟩, ⟨w, hw⟩, tables, by simpa [hv.2.2, hw.2.2] using same⟩
  · rintro ⟨⟨v, hv⟩, ⟨w, hw⟩, tables, same⟩
    exact ⟨tables, v, w, hv, hw, by simpa [hv.2.2, hw.2.2] using same⟩

theorem twins_self_iff : c.Twins c ↔ ∃ row, c.Puts row := by
  constructor
  · rintro ⟨-, v, -, puts, -⟩
    exact ⟨v, puts⟩
  · rintro ⟨row, puts⟩
    exact ⟨rfl, row, row, puts, puts, BEq.rfl⟩

theorem sameRow_iff (ha : ∃ row, a.Puts row) (hb : ∃ row, b.Puts row) :
    Script.sameRow a b = true ↔ a.Twins b := by
  simp [twins_iff, exists_puts_iff.1 ha, exists_puts_iff.1 hb]

instance : DecidableRel Twins := fun _ _ => decidable_of_iff' _ twins_iff

theorem Twins.symm (h : a.Twins b) : b.Twins a := by
  obtain ⟨tables, v, w, hv, hw, same⟩ := h
  exact ⟨tables.symm, w, v, hw, hv, BEq.symm same⟩

theorem Twins.puts (h : a.Twins b) : ∃ row, a.Puts row := by
  obtain ⟨-, v, -, puts, -, -⟩ := h
  exact ⟨v, puts⟩

theorem Twins.trans (h : a.Twins b) (h' : b.Twins c) : a.Twins c := by
  obtain ⟨tables, v, w, hv, hw, same⟩ := h
  obtain ⟨tables', w', x, hw', hx, same'⟩ := h'
  obtain rfl : w = w' := Option.some.inj (hw.2.2.symm.trans hw'.2.2)
  exact ⟨tables.trans tables', v, x, hv, hx, PartialEquivBEq.trans same same'⟩

end Change

namespace Script

variable {changes : List Change} {c b : Change} {i : Nat} {firsts : List (Nat × Change)}
  {counted : List (Change × Nat)}

/-- The insertion at this place puts a row without a key, and nothing before it is alike. -/
structure OpensClass (changes : List Change) (i : Nat) (c : Change) : Prop where
  stands : changes[i]? = some c
  puts : ∃ row, c.Puts row
  first : ∀ j b, j < i → changes[j]? = some b → ¬ b.Twins c

def classSize (changes : List Change) (c : Change) : Nat := changes.countP fun b => c.Twins b

/-- The texts are the advice about changes that take `count` statements: on each change in order, then
on each class of two or more insertions that nothing tells apart, in the order of their first members
and with their number, and then on the length of the script if that is above the threshold. -/
def Advised (changes : List Change) (count threshold : Nat) (texts : List String) : Prop :=
  ∃ (own : List (List Advice)) (firsts : List (Nat × Change)),
    List.Forall₂ Change.Advises changes own ∧
    firsts.Pairwise (fun a b => a.1 < b.1) ∧
    (∀ i c, (i, c) ∈ firsts ↔ OpensClass changes i c ∧ 2 ≤ classSize changes c) ∧
    texts = (own.flatten ++ firsts.map (fun e => Advice.twins e.2 (classSize changes e.2)) ++
      if threshold < count then [Advice.long count threshold] else []).map Advice.text

/-! ## One more insertion -/

/-- An insertion that is like one of those counted counts there and nowhere else. -/
theorem countInserts_known (puts : ∀ e ∈ counted, ∃ row, e.1.Puts row) (new : ∃ row, c.Puts row)
    (apart : counted.Pairwise fun a b => ¬ a.1.Twins b.1) (known : ∃ e ∈ counted, e.1.Twins c) :
    countInserts counted c = counted.map fun e => (e.1, e.2 + if e.1.Twins c then 1 else 0) := by
  induction counted with
  | nil =>
    obtain ⟨e, mem, -⟩ := known
    exact absurd mem List.not_mem_nil
  | cons e rest ih =>
    obtain ⟨first, n⟩ := e
    obtain ⟨differ, apart⟩ := List.pairwise_cons.1 apart
    have same := Change.sameRow_iff (puts _ List.mem_cons_self) new
    rw [countInserts, List.map_cons]
    by_cases like : first.Twins c
    · -- What is like the change is like the first one of its class, so that no other one counts it.
      have others : ∀ e ∈ rest, ¬ e.1.Twins c := by
        intro e mem likeE
        exact differ e mem (like.trans likeE.symm)
      have kept : rest.map (fun e => (e.1, e.2 + if e.1.Twins c then 1 else 0)) = rest.map id :=
        List.map_congr_left fun e mem => by rw [if_neg (others e mem)]; rfl
      rw [if_pos (same.2 like), if_pos like, kept, List.map_id]
    · rw [if_neg (same.not.2 like), if_neg like]
      congr 1
      refine ih (fun e mem => puts e (List.mem_cons_of_mem _ mem)) apart ?_
      obtain ⟨e, mem, likeE⟩ := known
      rcases List.mem_cons.1 mem with rfl | mem
      · exact absurd likeE like
      · exact ⟨e, mem, likeE⟩

theorem countInserts_new (puts : ∀ e ∈ counted, ∃ row, e.1.Puts row) (new : ∃ row, c.Puts row)
    (unknown : ∀ e ∈ counted, ¬ e.1.Twins c) : countInserts counted c = counted ++ [(c, 1)] := by
  induction counted with
  | nil => rfl
  | cons e rest ih =>
    obtain ⟨first, n⟩ := e
    have differ := unknown _ List.mem_cons_self
    rw [countInserts, if_neg ((Change.sameRow_iff (puts _ List.mem_cons_self) new).not.2 differ),
      ih (fun e mem => puts e (List.mem_cons_of_mem _ mem))
        fun e mem => unknown e (List.mem_cons_of_mem _ mem)]
    rfl

/-! ## The first of each class -/

structure Firsts (changes : List Change) (firsts : List (Nat × Change)) : Prop where
  ascending : firsts.Pairwise fun a b => a.1 < b.1
  mem : ∀ i c, (i, c) ∈ firsts ↔ OpensClass changes i c

theorem OpensClass.lt_length (h : OpensClass changes i c) : i < changes.length :=
  (List.getElem?_eq_some_iff.1 h.stands).1

theorem opensClass_append (inside : i < changes.length) (d : Change) :
    OpensClass (changes ++ [d]) i c ↔ OpensClass changes i c := by
  have before : ∀ j, j ≤ i → (changes ++ [d])[j]? = changes[j]? :=
    fun j le => List.getElem?_append_left (by omega)
  constructor
  · intro h
    refine ⟨before i (Nat.le_refl i) ▸ h.stands, h.puts, fun j b less at_ => h.first j b less ?_⟩
    rw [before j (by omega), at_]
  · intro h
    refine ⟨(before i (Nat.le_refl i)).trans h.stands, h.puts, fun j b less at_ => ?_⟩
    exact h.first j b less (before j (by omega) ▸ at_)

theorem opensClass_append_iff : OpensClass (changes ++ [c]) i b ↔
    OpensClass changes i b ∨
      (i = changes.length ∧ b = c ∧ OpensClass (changes ++ [c]) changes.length c) := by
  constructor
  · intro first
    have bound := first.lt_length
    rw [List.length_append, List.length_singleton] at bound
    by_cases last : i = changes.length
    · subst last
      obtain rfl : b = c := Option.some.inj (first.stands.symm.trans (by simp))
      exact .inr ⟨rfl, rfl, first⟩
    · exact .inl ((opensClass_append (by omega) c).1 first)
  · rintro (first | ⟨rfl, rfl, first⟩)
    · exact (opensClass_append first.lt_length c).2 first
    · exact first

theorem exists_opensClass (puts : ∃ row, c.Puts row) (stands : changes[i]? = some c) :
    ∃ j b, OpensClass changes j b ∧ b.Twins c := by
  induction i using Nat.strongRecOn generalizing c with
  | ind i ih =>
    by_cases earlier : ∃ j b, j < i ∧ changes[j]? = some b ∧ b.Twins c
    · obtain ⟨j, b, less, at_, like⟩ := earlier
      obtain ⟨k, a, first, like'⟩ := ih j less like.puts at_
      exact ⟨k, a, first, like'.trans like⟩
    · exact ⟨i, c, ⟨stands, puts, fun j b less at_ like => earlier ⟨j, b, less, at_, like⟩⟩,
        Change.twins_self_iff.2 puts⟩

namespace Firsts

theorem puts (h : Firsts changes firsts) : ∀ e ∈ firsts, ∃ row, e.2.Puts row :=
  fun e mem => ((h.mem e.1 e.2).1 mem).puts

theorem apart (h : Firsts changes firsts) : firsts.Pairwise fun a b => ¬ a.2.Twins b.2 :=
  h.ascending.imp_of_mem fun {a b} ha hb less =>
    ((h.mem b.1 b.2).1 hb).first a.1 a.2 less ((h.mem a.1 a.2).1 ha).stands

theorem keep (h : Firsts changes firsts)
    (other : ¬ OpensClass (changes ++ [c]) changes.length c) :
    Firsts (changes ++ [c]) firsts := by
  refine ⟨h.ascending, fun i b => ?_⟩
  rw [h.mem, opensClass_append_iff]
  exact ⟨.inl, fun either => either.resolve_right fun ⟨_, same, first⟩ => other (same ▸ first)⟩

theorem known (h : Firsts changes firsts) (known : ∃ e ∈ firsts, e.2.Twins c) :
    Firsts (changes ++ [c]) firsts := by
  obtain ⟨e, mem, like⟩ := known
  have before := (h.mem e.1 e.2).1 mem
  refine h.keep fun first => first.first e.1 e.2 before.lt_length ?_ like
  rw [List.getElem?_append_left before.lt_length, before.stands]

theorem unlike (h : Firsts changes firsts) (unknown : ∀ e ∈ firsts, ¬ e.2.Twins c) :
    ∀ b ∈ changes, ¬ b.Twins c := by
  intro b mem like
  obtain ⟨i, at_⟩ := List.mem_iff_getElem?.1 mem
  obtain ⟨j, a, first, like'⟩ := exists_opensClass like.puts at_
  exact unknown (j, a) ((h.mem j a).2 first) (like'.trans like)

theorem new (h : Firsts changes firsts) (puts : ∃ row, c.Puts row)
    (unknown : ∀ e ∈ firsts, ¬ e.2.Twins c) :
    Firsts (changes ++ [c]) (firsts ++ [(changes.length, c)]) := by
  have opens : OpensClass (changes ++ [c]) changes.length c := by
    refine ⟨by simp, puts, fun j b less at_ => h.unlike unknown b ?_⟩
    rw [List.getElem?_append_left less] at at_
    exact List.mem_of_getElem? at_
  refine ⟨List.pairwise_append.2 ⟨h.ascending, List.pairwise_singleton _ _, fun a ha b hb => ?_⟩,
    fun i b => ?_⟩
  · rw [List.mem_singleton.1 hb]
    exact ((h.mem a.1 a.2).1 ha).lt_length
  · rw [List.mem_append, h.mem, List.mem_singleton, Prod.mk.injEq, opensClass_append_iff]
    exact or_congr_right ⟨fun ⟨at_, same⟩ => ⟨at_, same, opens⟩, fun ⟨at_, same, _⟩ => ⟨at_, same⟩⟩

end Firsts

/-! ## All insertions -/

/-- The insertions without a key, each first one with the number of its like. -/
def tally (changes : List Change) : List (Change × Nat) :=
  (changes.filter isAnonymousInsert).foldl countInserts []

def withCounts (changes : List Change) (firsts : List (Nat × Change)) : List (Change × Nat) :=
  firsts.map fun e => (e.2, classSize changes e.2)

theorem tally_append (changes : List Change) (c : Change) :
    tally (changes ++ [c]) =
      if isAnonymousInsert c = true then countInserts (tally changes) c else tally changes := by
  by_cases puts : isAnonymousInsert c = true <;> simp [tally, puts]

theorem classSize_append (changes : List Change) (c b : Change) :
    classSize (changes ++ [c]) b = classSize changes b + if b.Twins c then 1 else 0 := by
  simp [classSize, List.countP_append, List.countP_cons]

theorem withCounts_append (changes : List Change) (c : Change) (firsts : List (Nat × Change)) :
    withCounts (changes ++ [c]) firsts =
      (withCounts changes firsts).map fun e => (e.1, e.2 + if e.1.Twins c then 1 else 0) := by
  rw [withCounts, withCounts, List.map_map]
  exact List.map_congr_left fun e _ => by rw [classSize_append]; rfl

theorem withCounts_append_of_unlike (unlike : ∀ e ∈ firsts, ¬ e.2.Twins c) :
    withCounts (changes ++ [c]) firsts = withCounts changes firsts :=
  List.map_congr_left fun e mem => by rw [classSize_append, if_neg (unlike e mem), Nat.add_zero]

theorem Firsts.withCounts_new (h : Firsts changes firsts) (puts : ∃ row, c.Puts row)
    (unknown : ∀ e ∈ firsts, ¬ e.2.Twins c) :
    withCounts (changes ++ [c]) (firsts ++ [(changes.length, c)]) =
      withCounts changes firsts ++ [(c, 1)] := by
  have none : classSize changes c = 0 :=
    List.countP_eq_zero.2 fun b mem like => h.unlike unknown b mem (of_decide_eq_true like).symm
  have one : classSize (changes ++ [c]) c = 1 := by
    rw [classSize_append, none, if_pos (Change.twins_self_iff.2 puts)]
  rw [← withCounts_append_of_unlike unknown]
  simp [withCounts, one]

/-- Counting one after another finds the first insertion of each class, in order, and its size. -/
theorem exists_firsts (changes : List Change) :
    ∃ firsts, Firsts changes firsts ∧ tally changes = withCounts changes firsts := by
  induction changes using List.reverseRecOn with
  | nil => exact ⟨[], ⟨.nil, fun i c => ⟨nofun, fun first => absurd first.lt_length (by simp)⟩⟩, rfl⟩
  | append_singleton changes c ih =>
    obtain ⟨firsts, h, tallied⟩ := ih
    by_cases anonymous : isAnonymousInsert c = true
    · have putsC := Change.exists_puts_iff.2 anonymous
      have puts : ∀ e ∈ withCounts changes firsts, ∃ row, e.1.Puts row := List.forall_mem_map.2 h.puts
      rw [tally_append, if_pos anonymous, tallied]
      by_cases known : ∃ e ∈ firsts, e.2.Twins c
      · -- Its class is counted already, and no other first one is of that class.
        refine ⟨firsts, h.known known, ?_⟩
        obtain ⟨e, mem, like⟩ := known
        rw [countInserts_known puts putsC (List.pairwise_map.2 h.apart)
          ⟨_, List.mem_map_of_mem mem, like⟩, withCounts_append]
      · -- It opens a class, of which it is the only member so far.
        have unknown : ∀ e ∈ firsts, ¬ e.2.Twins c := by
          intro e mem like
          exact known ⟨e, mem, like⟩
        refine ⟨_, h.new putsC unknown, ?_⟩
        rw [countInserts_new puts putsC (List.forall_mem_map.2 unknown), h.withCounts_new putsC unknown]
    · -- It is of no class, and not counted.
      have unlike : ∀ e ∈ firsts, ¬ e.2.Twins c := by
        intro e _ like
        exact anonymous (Change.twins_iff.1 like).2.1
      rw [tally_append, if_neg anonymous, tallied, ← withCounts_append_of_unlike unlike]
      exact ⟨firsts, h.keep fun first => anonymous (Change.exists_puts_iff.1 first.puts), rfl⟩

/-! ## Compiled scripts -/

variable {threshold : Nat} {keyColumns : KeyColumns} {d : Dialect} {scope : Option Table}
  {script : Script}

theorem duplicateWarnings_eq (changes : List Change) :
    ∃ firsts : List (Nat × Change), firsts.Pairwise (fun a b => a.1 < b.1) ∧
      (∀ i c, (i, c) ∈ firsts ↔ OpensClass changes i c ∧ 2 ≤ classSize changes c) ∧
      duplicateWarnings changes =
        (firsts.map fun e => Advice.twins e.2 (classSize changes e.2)).map Advice.text := by
  obtain ⟨firsts, h, tallied⟩ := exists_firsts changes
  refine ⟨firsts.filter fun e => 2 ≤ classSize changes e.2, h.ascending.filter _, fun i c => ?_, ?_⟩
  · rw [List.mem_filter, h.mem, decide_eq_true_iff]
  · change ((tally changes).filter fun e => 1 < e.2).map _ = _
    rw [tallied, withCounts, List.filter_map, List.map_map, List.map_map]
    rfl

theorem warnings_of_compile (h : compile threshold keyColumns d scope changes = .ok script) :
    script.warnings = (covered scope changes).flatMap changeWarnings ++
      duplicateWarnings (covered scope changes) ++ lengthWarnings script.statementCount threshold := by
  rw [compile, (compiles_of_compile h).statements] at h
  exact (congrArg warnings (Except.ok.inj h)).symm

/-- The warnings of a script are the advice about the changes that it covers, and nothing else. -/
theorem compile_advised (h : compile threshold keyColumns d scope changes = .ok script) :
    Advised (covered scope changes) script.statementCount threshold script.warnings := by
  obtain ⟨firsts, ascending, mem, twins⟩ := duplicateWarnings_eq (covered scope changes)
  choose advice advises texts using Change.changeWarnings_eq
  have own : (covered scope changes).flatMap changeWarnings =
      ((covered scope changes).map advice).flatten.map Advice.text := by
    rw [List.flatMap_def, List.map_flatten, List.map_map]
    exact congrArg List.flatten (List.map_congr_left fun c _ => texts c)
  have length : lengthWarnings script.statementCount threshold =
      (if threshold < script.statementCount then [Advice.long script.statementCount threshold]
        else []).map Advice.text := by
    unfold lengthWarnings
    split <;> rfl
  refine ⟨(covered scope changes).map advice, firsts, ?_, ascending, mem, ?_⟩
  · exact List.forall₂_map_right_iff.2 (List.forall₂_same.2 fun c _ => advises c)
  · rw [warnings_of_compile h, own, twins, length, List.map_append, List.map_append]

end Script

/-! ## Rows put in twice -/

namespace Sample

/-- Another table. -/
def boxes : Table := ⟨"shop", none, "boxes"⟩

/-- Rows without keys go into two tables in turn, between updates without a key and of a key. -/
def doubled : List Change :=
  [keylessUpdate, (Edit.insert boxes (named "a") none).toChange (id 2) ⟨1, 0⟩,
    (Edit.insert items (named "a") none).toChange (id 3) ⟨2, 0⟩,
    (Edit.insert boxes (named "a") none).toChange (id 4) ⟨3, 0⟩,
    (Edit.insert items (named "b") none).toChange (id 5) ⟨4, 0⟩,
    (Edit.insert items (named "a") none).toChange (id 6) ⟨5, 0⟩,
    (Edit.update items (some (key 1)) (item 1 "a") (item 2 "a")).toChange (id 7) ⟨6, 0⟩,
    (Edit.insert items (named "a") none).toChange (id 8) ⟨7, 0⟩]

theorem compile_advised_doubled :
    ∃ script, Script.compile 7 Dict.empty .sqlite none doubled = .ok script ∧
      script.warnings =
        ["update on shop.items has no primary key and matches its row by every column; " ++
            "identical rows would all be affected",
          "update on shop.items changes key column(s) id",
          "2 identical inserts staged for shop.boxes without a key; they cannot be told apart",
          "3 identical inserts staged for shop.items without a key; they cannot be told apart",
          "script has 8 statements, above the review threshold of 7"] ∧
      Script.Advised doubled 8 7 script.warnings := by
  have compiled : ∃ script, Script.compile 7 Dict.empty .sqlite none doubled = .ok script ∧
    script.statementCount = 8 := ⟨_, rfl, rfl⟩
  obtain ⟨script, h, count⟩ := compiled
  have advised := Script.compile_advised h
  rw [count] at advised
  refine ⟨script, h, ?_, advised⟩
  rw [Script.warnings_of_compile h, count]
  rfl

end Sample

end DraftLedger
