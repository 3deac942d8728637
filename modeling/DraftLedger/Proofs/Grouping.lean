import DraftLedger.Ledger.Group
import DraftLedger.Proofs.TimeOrder
import Mathlib.Algebra.GroupWithZero.Nat

/-!
# Groups are the changes of their tables

The groups of a list of changes are made by filing one change after another, and then sorted by their
earliest times.  Filing alone keeps the tables in the order in which they first occur, and sorting
leaves that order as it is because the changes of a session ascend in time.

* `Group.SumsUp` : what a group says of the changes of its table.
* `Group.Partition` : groups that divide changes among their tables.
* `Group.file_cases` : where a change is filed.
* `Group.gather_partition`, `Group.tables_gather` : the loop over the changes.
* `Engine.reached_grouped` : the groups of every session that is reached from an empty store.
-/

set_option autoImplicit false

namespace DraftLedger

namespace Group

/-! ## What groups say -/

/-- The group has the identifiers of the changes of its table in their order, the number of changes of
each kind, and the time of an earliest one. -/
structure SumsUp (changes : List Change) (g : Group) : Prop where
  changeIds : g.changeIds = (changes.filter fun c => c.table = g.table).map Change.id
  inserts : g.inserts = changes.countP fun c => c.table = g.table ∧ c.kind = .insert
  updates : g.updates = changes.countP fun c => c.table = g.table ∧ c.kind = .update
  deletes : g.deletes = changes.countP fun c => c.table = g.table ∧ c.kind = .delete
  earliest : ∃ c ∈ changes, c.table = g.table ∧ g.firstTimestamp = c.timestamp
  first : ∀ c ∈ changes, c.table = g.table → ¬ c.timestamp < g.firstTimestamp

/-- There is one group for each table that has a change, it sums up the changes of its table, and all
groups together count all changes. -/
structure Partition (changes : List Change) (groups : List Group) : Prop where
  single : (groups.map Group.table).Nodup
  tables : ∀ t, t ∈ groups.map Group.table ↔ ∃ c ∈ changes, c.table = t
  sums : ∀ g ∈ groups, g.SumsUp changes
  total : (groups.map Group.total).sum = changes.length

variable {changes : List Change} {groups groups' : List Group} {g : Group} {c : Change}

/-! ## One more change -/

theorem add_total (g : Group) (c : Change) : (g.add c).total = g.total + 1 := by
  cases kind : c.kind <;> simp [add, total, kind] <;> omega

theorem earlier_le (a b : Stamp) :
    ¬ a < Stamp.earlier a b ∧ ¬ b < Stamp.earlier a b ∧
      (Stamp.earlier a b = a ∨ Stamp.earlier a b = b) := by
  unfold Stamp.earlier
  simp only [Stamp.lt_iff_rank]
  split
  · exact ⟨by omega, by omega, .inr rfl⟩
  · exact ⟨by omega, by omega, .inl rfl⟩

namespace SumsUp

theorem other (h : g.SumsUp changes) (differ : c.table ≠ g.table) : g.SumsUp (changes ++ [c]) where
  changeIds := by simp [List.filter_append, differ, h.changeIds]
  inserts := by simp [List.countP_append, differ, h.inserts]
  updates := by simp [List.countP_append, differ, h.updates]
  deletes := by simp [List.countP_append, differ, h.deletes]
  earliest := by
    obtain ⟨b, hb, same⟩ := h.earliest
    exact ⟨b, List.mem_append_left _ hb, same⟩
  first b hb own := by
    rcases List.mem_append.1 hb with old | new
    · exact h.first b old own
    · exact absurd (List.mem_singleton.1 new ▸ own) differ

theorem add (h : g.SumsUp changes) (same : c.table = g.table) :
    (g.add c).SumsUp (changes ++ [c]) := by
  obtain ⟨notBefore, notBefore', either⟩ := earlier_le g.firstTimestamp c.timestamp
  refine ⟨?_, ?_, ?_, ?_, ?_, fun b hb own => ?_⟩
  · simp [Group.add, List.filter_append, same, h.changeIds]
  · simp [Group.add, List.countP_append, List.countP_cons, same, h.inserts]
  · simp [Group.add, List.countP_append, List.countP_cons, same, h.updates]
  · simp [Group.add, List.countP_append, List.countP_cons, same, h.deletes]
  · rcases either with old | new
    · obtain ⟨b, hb, own, time⟩ := h.earliest
      exact ⟨b, List.mem_append_left _ hb, own, old.trans time⟩
    · exact ⟨c, by simp, same, new⟩
  · rcases List.mem_append.1 hb with old | new
    · have notEarlier := h.first b old own
      simp only [Stamp.lt_iff_rank, Group.add] at notEarlier notBefore ⊢
      omega
    · rw [List.mem_singleton.1 new]
      exact notBefore'

theorem start (none : ∀ b ∈ changes, b.table ≠ c.table) :
    ((start c).add c).SumsUp (changes ++ [c]) := by
  have nothing : changes.filter (fun b => b.table = c.table) = [] := by simpa using none
  have nobody (kind : ChangeKind) : ∀ b ∈ changes, b.table = c.table → ¬ b.kind = kind :=
    fun b hb same => absurd same (none b hb)
  have time : Stamp.earlier c.timestamp c.timestamp = c.timestamp := by
    rcases (earlier_le c.timestamp c.timestamp).2.2 with same | same <;> exact same
  refine ⟨?_, ?_, ?_, ?_, ⟨c, by simp, rfl, time⟩, fun b hb own => ?_⟩
  · simp [Group.start, Group.add, List.filter_append, nothing]
  · simpa [Group.start, Group.add, List.countP_append, List.countP_cons] using nobody _
  · simpa [Group.start, Group.add, List.countP_append, List.countP_cons] using nobody _
  · simpa [Group.start, Group.add, List.countP_append, List.countP_cons] using nobody _
  · rcases List.mem_append.1 hb with old | new
    · exact absurd own (none b old)
    · rw [List.mem_singleton.1 new]
      exact (earlier_le c.timestamp c.timestamp).2.1

end SumsUp

/-! ## Filing -/

/-- A change is filed in the first group of its table, or starts one at the end. -/
theorem file_cases (c : Change) (groups : List Group) :
    (∃ before g after, groups = before ++ g :: after ∧ g.table = c.table ∧
        file c groups = before ++ g.add c :: after) ∨
      ((∀ g ∈ groups, g.table ≠ c.table) ∧ file c groups = groups ++ [(start c).add c]) := by
  induction groups with
  | nil => exact .inr ⟨fun g hg => absurd hg List.not_mem_nil, rfl⟩
  | cons g rest ih =>
    by_cases own : g.table = c.table
    · exact .inl ⟨[], g, rest, rfl, own, by rw [file, if_pos own]; rfl⟩
    · rw [file, if_neg own]
      rcases ih with ⟨before, g', after, rfl, same, filed⟩ | ⟨none, filed⟩
      · exact .inl ⟨g :: before, g', after, rfl, same, by rw [filed]; rfl⟩
      · refine .inr ⟨fun g' hg => ?_, by rw [filed]; rfl⟩
        rcases List.mem_cons.1 hg with rfl | hg
        · exact own
        · exact none g' hg

theorem Partition.add {before after : List Group} (h : Partition changes (before ++ g :: after))
    (own : g.table = c.table) : Partition (changes ++ [c]) (before ++ g.add c :: after) := by
  have tables : (before ++ g.add c :: after).map Group.table =
      (before ++ g :: after).map Group.table := by
    simp [Group.add]
  have others : ∀ g' ∈ before ++ after, c.table ≠ g'.table := by
    have single := h.single
    simp only [List.map_append, List.map_cons, List.nodup_middle, List.nodup_cons] at single
    intro g' hg' same
    refine single.1 (own ▸ same ▸ ?_)
    rw [← List.map_append]
    exact List.mem_map_of_mem hg'
  refine ⟨tables ▸ h.single, fun t => ?_, fun g' hg' => ?_, ?_⟩
  · rw [tables, h.tables t]
    constructor
    · rintro ⟨b, hb, same⟩
      exact ⟨b, List.mem_append_left _ hb, same⟩
    · rintro ⟨b, hb, same⟩
      rcases List.mem_append.1 hb with old | new
      · exact ⟨b, old, same⟩
      · refine (h.tables t).1 ?_
        rw [← same, List.mem_singleton.1 new, ← own]
        simp
  · have mem (hg : g' ∈ before ++ after) : g'.SumsUp (changes ++ [c]) :=
      (h.sums g' (((List.sublist_cons_self g after).append_left before).subset hg)).other
        (others g' hg)
    rcases List.mem_append.1 hg' with front | back
    · exact mem (List.mem_append_left _ front)
    · rcases List.mem_cons.1 back with rfl | back
      · exact (h.sums g (by simp)).add own.symm
      · exact mem (List.mem_append_right _ back)
  · have total := h.total
    simp only [List.map_append, List.map_cons, List.sum_append, List.sum_cons, add_total,
      List.length_append, List.length_singleton] at total ⊢
    omega

theorem Partition.start (h : Partition changes groups) (none : ∀ g ∈ groups, g.table ≠ c.table) :
    Partition (changes ++ [c]) (groups ++ [(start c).add c]) := by
  have fresh : ∀ b ∈ changes, b.table ≠ c.table := by
    intro b hb same
    obtain ⟨g, hg, eq⟩ := List.mem_map.1 ((h.tables c.table).2 ⟨b, hb, same⟩)
    exact none g hg eq
  refine ⟨?_, fun t => ?_, fun g hg => ?_, ?_⟩
  · rw [List.map_append, List.map_singleton, List.nodup_append]
    refine ⟨h.single, List.nodup_singleton _, fun t ht t' ht' same => ?_⟩
    obtain ⟨g, hg, rfl⟩ := List.mem_map.1 ht
    rw [List.mem_singleton.1 ht'] at same
    exact none g hg same
  · have one : ((Group.start c).add c).table = c.table := rfl
    simp only [List.map_append, List.mem_append, h.tables t, List.map_singleton,
      List.mem_singleton, one]
    constructor
    · rintro (⟨b, hb, same⟩ | rfl)
      · exact ⟨b, .inl hb, same⟩
      · exact ⟨c, .inr rfl, rfl⟩
    · rintro ⟨b, hb | rfl, same⟩
      · exact .inl ⟨b, hb, same⟩
      · exact .inr same.symm
  · rcases List.mem_append.1 hg with old | new
    · exact (h.sums g old).other fun same => none g old same.symm
    · rw [List.mem_singleton.1 new]
      exact .start fresh
  · have one : (Group.start c).total = 0 := rfl
    simp [h.total, add_total, one]

theorem Partition.file (h : Partition changes groups) (c : Change) :
    Partition (changes ++ [c]) (file c groups) := by
  rcases file_cases c groups with ⟨before, g, after, rfl, own, filed⟩ | ⟨none, filed⟩
  · exact filed ▸ h.add own
  · exact filed ▸ h.start none

/-! ## All changes -/

theorem gather_append (changes : List Change) (c : Change) :
    gather (changes ++ [c]) = file c (gather changes) := by
  simp [gather]

theorem gather_partition (changes : List Change) : Partition changes (gather changes) := by
  induction changes using List.reverseRecOn with
  | nil => exact ⟨.nil, by simp [gather], by simp [gather], rfl⟩
  | append_singleton changes c ih =>
    rw [gather_append]
    exact ih.file c

/-- The groups stand in the order in which their tables first occur. -/
theorem tables_gather (changes : List Change) :
    (gather changes).map Group.table = (changes.map Change.table).eraseDups := by
  induction changes using List.reverseRecOn with
  | nil => rfl
  | append_singleton changes c ih =>
    have known := (gather_partition changes).tables c.table
    rw [gather_append, List.map_append, List.map_singleton, List.eraseDups_append, ← ih]
    rcases file_cases c (gather changes) with ⟨before, g, after, eq, own, filed⟩ | ⟨none, filed⟩
    · have there : c.table ∈ changes.map Change.table := by
        obtain ⟨b, hb, same⟩ := known.1 (by simp [eq, own])
        exact List.mem_map.2 ⟨b, hb, same⟩
      have nothing : [c.table].removeAll (changes.map Change.table) = [] := by
        simpa [List.removeAll] using there
      rw [filed, eq, nothing]
      simp [Group.add]
    · have fresh : c.table ∉ changes.map Change.table := by
        intro there
        obtain ⟨g, hg, same⟩ := List.mem_map.1 (known.2 (List.mem_map.1 there))
        exact none g hg same
      have one : [c.table].removeAll (changes.map Change.table) = [c.table] := by
        simpa [List.removeAll] using fresh
      have alone : [c.table].eraseDups = [c.table] := by simp [List.eraseDups_cons]
      rw [filed, one, alone]
      simp [Group.add, start]

theorem gather_ascending (ascending : changes.Pairwise fun a b => a.timestamp < b.timestamp) :
    (gather changes).Pairwise fun a b => a.firstTimestamp < b.firstTimestamp := by
  induction changes using List.reverseRecOn with
  | nil => exact .nil
  | append_singleton changes c ih =>
    obtain ⟨before, -, across⟩ := List.pairwise_append.1 ascending
    have later : ∀ g ∈ gather changes, g.firstTimestamp < c.timestamp := by
      intro g hg
      obtain ⟨b, hb, -, time⟩ := ((gather_partition changes).sums g hg).earliest
      rw [time]
      exact across b hb c List.mem_cons_self
    have groups := ih before
    rw [gather_append]
    rcases file_cases c (gather changes) with ⟨front, g, back, eq, own, filed⟩ | ⟨none, filed⟩
    · -- The change is later than its group, which keeps its time.
      have behind := later g (by simp [eq])
      have time : (g.add c).firstTimestamp = g.firstTimestamp := by
        rw [Stamp.lt_iff_rank] at behind
        have notEarlier : ¬ c.timestamp < g.firstTimestamp := by
          rw [Stamp.lt_iff_rank]
          omega
        exact if_neg notEarlier
      rw [eq] at groups
      rw [filed]
      simp only [List.pairwise_append, List.pairwise_cons, List.forall_mem_cons, time] at groups ⊢
      exact groups
    · rw [filed]
      refine List.pairwise_append.2 ⟨groups, List.pairwise_singleton _ _, fun g hg g' hg' => ?_⟩
      have time : ((start c).add c).firstTimestamp = c.timestamp := by
        rcases (earlier_le c.timestamp c.timestamp).2.2 with same | same <;> exact same
      rw [List.mem_singleton.1 hg', time]
      exact later g hg

/-! ## Sorting -/

theorem precedes_iff {a b : Group} :
    precedes a b = true ↔ a.firstTimestamp.rank < b.firstTimestamp.rank ∨
      (a.firstTimestamp.rank = b.firstTimestamp.rank ∧ ¬ b.table < a.table) := by
  have same : a.firstTimestamp = b.firstTimestamp ↔
      a.firstTimestamp.rank = b.firstTimestamp.rank :=
    ⟨congrArg Stamp.rank, Stamp.rank_injective⟩
  simp [precedes, Stamp.lt_iff_rank, same]

theorem precedes_trans (a b c : Group) (h : precedes a b = true) (h' : precedes b c = true) :
    precedes a c = true := by
  have tables (ab : ¬ b.table < a.table) (bc : ¬ c.table < b.table) : ¬ c.table < a.table := by
    intro ca
    by_cases less : b.table < c.table
    · exact ab (LinearKey.trans less ca)
    · exact ab (LinearKey.connected less bc ▸ ca)
  rw [precedes_iff] at h h' ⊢
  rcases h with h | ⟨h, ab⟩ <;> rcases h' with h' | ⟨h', bc⟩
  · exact .inl (by omega)
  · exact .inl (by omega)
  · exact .inl (by omega)
  · exact .inr ⟨by omega, tables ab bc⟩

theorem precedes_total (a b : Group) : (precedes a b || precedes b a) = true := by
  rw [Bool.or_eq_true, precedes_iff, precedes_iff]
  rcases Nat.lt_trichotomy a.firstTimestamp.rank b.firstTimestamp.rank with less | same | more
  · exact .inl (.inl less)
  · by_cases less : b.table < a.table
    · exact .inr (.inr ⟨same.symm, fun more => LinearKey.irrefl _ (LinearKey.trans less more)⟩)
    · exact .inl (.inr ⟨same, less⟩)
  · exact .inr (.inl more)

theorem Partition.perm (h : Partition changes groups) (perm : groups'.Perm groups) :
    Partition changes groups' where
  single := (perm.map _).nodup_iff.2 h.single
  tables t := (perm.map _).mem_iff.trans (h.tables t)
  sums g hg := h.sums g (perm.mem_iff.1 hg)
  total := (perm.map _).sum_nat.trans h.total

theorem ofChanges_partition (changes : List Change) : Partition changes (ofChanges changes) :=
  (gather_partition changes).perm (List.mergeSort_perm _ _)

theorem ofChanges_eq_gather (ascending : changes.Pairwise fun a b => a.timestamp < b.timestamp) :
    ofChanges changes = gather changes :=
  List.mergeSort_of_pairwise ((gather_ascending ascending).imp fun {a b} less => by
    exact precedes_iff.2 (.inl (Stamp.lt_iff_rank.1 less)))

end Group

/-! ## The groups of a session -/

namespace Engine

/-- The groups of a session divide its changes among their tables, and are sorted by time and table.
In every state that moves lead to from an empty store, that is the order in which the tables first occur
among the changes. -/
theorem reached_grouped {settings : Settings} {listing : Listing} {database : Database}
    {e : Engine} (opened : Engine.opened settings (Store.empty listing) database = .ok e)
    (e' : Engine) (s : SessionId) :
    Group.Partition (e'.ledger.changes s) (e'.ledger.grouped s) ∧
      (e'.ledger.grouped s).Pairwise (fun a b => Group.precedes a b = true) ∧
      (e.Leads e' → (e'.ledger.grouped s).map Group.table =
        ((e'.ledger.changes s).map Change.table).eraseDups) := by
  refine ⟨Group.ofChanges_partition _,
    List.pairwise_mergeSort Group.precedes_trans Group.precedes_total _, fun leads => ?_⟩
  obtain ⟨chronological, space⟩ := opened_chronological opened
  have ordered := (leads.chronological chronological space).1.changes s
  rw [Ledger.grouped, Group.ofChanges_eq_gather ordered.ascending, Group.tables_gather]

end Engine

namespace Sample

open Engine

/-- A table whose name comes before that of the other one. -/
def bins : Table := ⟨"shop", none, "bins"⟩

/-- Rows of two tables are inserted in turn, and then the first insert is taken back. -/
def inTurn : List Move :=
  [.activate desk, .record desk (.insert items (item 1 "a") (some (key 1))) (id 1) 9,
    .record desk (.insert bins (item 1 "x") (some (key 1))) (id 2) 4,
    .record desk (.insert items (item 2 "b") (some (key 2))) (id 3) 9, .remove desk (id 1)]

/-- The table that lost its first change goes behind the other one. -/
theorem reached_grouped_inTurn :
    Group.Partition ((engine.run inTurn).ledger.changes desk) ((engine.run inTurn).ledger.grouped desk) ∧
      ((engine.run inTurn).ledger.grouped desk).map Group.table = [bins, items] ∧
      ((engine.run (inTurn.take 4)).ledger.changes desk).map Change.table = [items, bins, items] := by
  obtain ⟨parts, -, ordered⟩ := reached_grouped engine_opened (engine.run inTurn) desk
  have tables : ((engine.run inTurn).ledger.changes desk).map Change.table = [bins, items] := rfl
  refine ⟨parts, ?_, rfl⟩
  rw [ordered (engine.leads_run inTurn), tables]
  decide

end Sample

end DraftLedger
