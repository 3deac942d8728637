import DraftLedger.Change

/-!
# Pages

A page shows the rows that a database returned together with the changes staged for them.  Each
fetched row takes the first change that is not taken yet and fits it; insertions that no fetched
row takes follow as rows of their own.

* `Page`, `DisplayRow` : what is shown.
* `Change.fitsFetched` : when a fetched row is the row of a change.
* `Page.overlay` : the page of fetched rows and changes.
-/

set_option autoImplicit false

namespace DraftLedger

/-- How rows staged for deletion are shown. -/
inductive DeleteDisplay where
  /-- In their place, struck through. -/
  | strikethrough
  /-- Apart from the others. -/
  | hidden
deriving DecidableEq

def DeleteDisplay.name : DeleteDisplay → String
  | .strikethrough => "strikethrough"
  | .hidden => "hidden"

/-- The way of showing deletions that a word stands for. -/
def DeleteDisplay.ofName? : String → Option DeleteDisplay
  | "strikethrough" => some .strikethrough
  | "hidden" => some .hidden
  | _ => none

/-- What is staged for a row. -/
inductive RowState where
  | clean
  | updated
  | pendingDelete
  | inserted
deriving DecidableEq

def RowState.name : RowState → String
  | .clean => "clean"
  | .updated => "updated"
  | .pendingDelete => "pending_delete"
  | .inserted => "inserted"

/-- Where a row comes from; indices count the fetched rows. -/
inductive RowOrigin where
  | fetched (index : Nat)
  /-- A staged insertion that no fetched row has the key of. -/
  | synthetic
  /-- A staged insertion whose key a fetched row has. -/
  | matchedInsert (index : Nat)
deriving DecidableEq

/-- One row as it is shown. -/
structure DisplayRow where
  values : Row
  state : RowState
  origin : RowOrigin
  changeId : Option ChangeId
  /-- The columns that show a staged value, in ascending order. -/
  pendingColumns : List String

def DisplayRow.isPending (r : DisplayRow) : Bool := r.state ≠ .clean

/-- The rows that are shown, and the rows staged for deletion that are not. -/
structure Page where
  rows : List DisplayRow
  hidden : List DisplayRow

namespace Page

/-- The number of rows for which something is staged. -/
def pendingCount (p : Page) : Nat := (p.rows.filter DisplayRow.isPending).length + p.hidden.length

def find? (p : Page) (id : ChangeId) : Option DisplayRow :=
  (p.rows ++ p.hidden).find? fun r => r.changeId = some id

end Page

/-- Whether a fetched row is the row of a change: it has the key of the change; or, when the change
has none and is no insertion, it agrees with the row as it was. An insertion without a key is a new
row, whatever it is equal to. -/
def Change.fitsFetched (c : Change) (row : Row) : Bool :=
  match c.usableKey? with
  | some key => (Address.key key).matchesRow row
  | none =>
    if c.kind = .insert then false else (c.address?.map fun a => a.matchesRow row).getD false

namespace DisplayRow

def clean (index : Nat) (row : Row) : DisplayRow := ⟨row, .clean, .fetched index, none, []⟩

/-- A fetched row under the new values of a change. -/
def overlaid (row : Row) (c : Change) (state : RowState) (origin : RowOrigin) : DisplayRow :=
  let new := c.newValues.getD Dict.empty
  ⟨row.overlay new, state, origin, some c.id, new.keys⟩

def changed (index : Nat) (row : Row) (c : Change) : DisplayRow :=
  match c.kind with
  | .update => overlaid row c .updated (.fetched index)
  | .insert => overlaid row c .inserted (.matchedInsert index)
  | .delete => ⟨row, .pendingDelete, .fetched index, some c.id, []⟩

def synthetic (c : Change) : DisplayRow :=
  let new := c.newValues.getD Dict.empty
  ⟨new, .inserted, .synthetic, some c.id, new.keys⟩

end DisplayRow

namespace Page

/-- The first change that fits a row, with the changes that stay. -/
def takeFirst (row : Row) : List Change → Option (Change × List Change)
  | [] => none
  | c :: rest =>
    if c.fitsFetched row then some (c, rest)
    else (takeFirst row rest).map fun r => (r.1, c :: r.2)

/-- The fetched rows from an index on, with the changes that they take, and the changes left. -/
def overlayFetched (index : Nat) (left : List Change) : List Row → List DisplayRow × List Change
  | [] => ([], left)
  | row :: rest =>
    match takeFirst row left with
    | none =>
      let (rows, left) := overlayFetched (index + 1) left rest
      (DisplayRow.clean index row :: rows, left)
    | some (c, left) =>
      let (rows, left) := overlayFetched (index + 1) left rest
      (DisplayRow.changed index row c :: rows, left)

/-- Whether a row is kept out of the rows that are shown. -/
def isHidden (display : DeleteDisplay) (r : DisplayRow) : Bool :=
  display = .hidden && r.state = .pendingDelete

/-- The page of fetched rows and the changes of their table. -/
def overlay (display : DeleteDisplay) (changes : List Change) (fetched : List Row) : Page :=
  let (rows, left) := overlayFetched 0 changes fetched
  let new := (left.filter fun c => c.kind = .insert).map DisplayRow.synthetic
  { rows := (rows.filter fun r => !isHidden display r) ++ new
    hidden := rows.filter (isHidden display) }

def untouched (fetched : List Row) : Page :=
  { rows := fetched.mapIdx DisplayRow.clean, hidden := [] }

end Page

end DraftLedger
