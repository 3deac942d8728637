import DraftLedger.Ledger

/-!
# Changes by table

* `Group` : what is staged for one table.
* `Group.ofChanges` : the groups of a list of changes, the table that was changed first in front.
-/

set_option autoImplicit false

namespace DraftLedger

/-- What is staged for one table. -/
structure Group where
  table : Table
  inserts : Nat
  updates : Nat
  deletes : Nat
  /-- The time of the earliest change. -/
  firstTimestamp : Stamp
  changeIds : List ChangeId

namespace Group

/-- A group without changes, at the time of the first one to come. -/
def start (c : Change) : Group := ⟨c.table, 0, 0, 0, c.timestamp, []⟩

def add (g : Group) (c : Change) : Group :=
  { g with
      inserts := g.inserts + if c.kind = .insert then 1 else 0
      updates := g.updates + if c.kind = .update then 1 else 0
      deletes := g.deletes + if c.kind = .delete then 1 else 0
      firstTimestamp := Stamp.earlier g.firstTimestamp c.timestamp
      changeIds := g.changeIds ++ [c.id] }

def total (g : Group) : Nat := g.inserts + g.updates + g.deletes

/-- Puts a change into the group of its table, which joins the end if there is none. -/
def file (c : Change) : List Group → List Group
  | [] => [(start c).add c]
  | g :: rest => if g.table = c.table then g.add c :: rest else g :: file c rest

/-- The groups of changes, in the order of the first changes of the tables. -/
def gather (changes : List Change) : List Group :=
  changes.foldl (fun groups c => file c groups) []

/-- Whether a group may stand before another: earlier ones do, and of two of one time the one whose
table comes first. -/
def precedes (a b : Group) : Bool :=
  a.firstTimestamp < b.firstTimestamp ||
    (a.firstTimestamp = b.firstTimestamp && !(b.table < a.table))

/-- The groups of changes by the time of their earliest change. -/
def ofChanges (changes : List Change) : List Group := (gather changes).mergeSort precedes

end Group

def Ledger.grouped (l : Ledger) (s : SessionId) : List Group := Group.ofChanges (l.changes s)

end DraftLedger
