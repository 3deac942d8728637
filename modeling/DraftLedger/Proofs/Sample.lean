import DraftLedger.Engine.Apply

/-!
# A table, a session and some rows

What the cases in other modules are about: the table `items` with the key column `id`, and a session
that edits it.
-/

set_option autoImplicit false

namespace DraftLedger.Sample

/-- A table. -/
def items : Table := ⟨"shop", none, "items"⟩

/-- A session. -/
def desk : SessionId := ⟨"desk"⟩

/-- A row of the table. -/
def item (id : Int64) (name : String) : Row := Dict.ofList [("id", .integer id), ("name", .text name)]

/-- The key of a row. -/
def key (id : Int64) : Row := Dict.ofList [("id", .integer id)]

/-- A key of one floating-point cell. -/
def floatKey (bits : UInt64) : Row := Dict.ofList [("id", .float ⟨bits⟩)]

/-- A row with a name alone. -/
def named (name : String) : Row := Dict.ofList [("name", .text name)]

/-- An identifier of version 7 that ends in a byte. -/
def id (n : UInt8) : ChangeId := ⟨⟨[1, 2, 3, 4, 5, 6, 0x70, 0, 0x80, 0, 0, 0, 0, 0, 0, n], rfl⟩⟩

/-- A ledger that knows the key column of the table and has the session active. -/
def ledger : Ledger :=
  (((Ledger.onStore (Store.empty .walk) "sandbox").setKeyColumns items ["id"]).activate desk).ledger

/-- An engine on an empty store. -/
def engine : Engine :=
  ⟨Settings.default, Ledger.onStore (Store.empty .walk) Settings.default.storagePrefix,
    Audience.empty, Database.empty, Dict.empty, []⟩

theorem engine_opened :
    Engine.opened Settings.default (Store.empty .walk) Database.empty = .ok engine := rfl

end DraftLedger.Sample
