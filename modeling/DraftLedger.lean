import DraftLedger.Apply
import DraftLedger.Audience
import DraftLedger.Binary64
import DraftLedger.Binary64.Shortest
import DraftLedger.Calendar
import DraftLedger.Cell
import DraftLedger.Cell.Stored
import DraftLedger.Change
import DraftLedger.Column
import DraftLedger.Dialect
import DraftLedger.Dict
import DraftLedger.Digest.Blake3
import DraftLedger.Document
import DraftLedger.Engine
import DraftLedger.Engine.Apply
import DraftLedger.Environment
import DraftLedger.Error
import DraftLedger.Execution
import DraftLedger.Identity
import DraftLedger.Json
import DraftLedger.Json.Record
import DraftLedger.Json.Value
import DraftLedger.Ledger
import DraftLedger.Ledger.Event
import DraftLedger.Ledger.Group
import DraftLedger.Ledger.Mutation
import DraftLedger.Numeral
import DraftLedger.Page
import DraftLedger.Proofs.Accounts
import DraftLedger.Proofs.Advisories
import DraftLedger.Proofs.Affected
import DraftLedger.Proofs.ApplyGate
import DraftLedger.Proofs.ArrayLiterals
import DraftLedger.Proofs.Atomicity
import DraftLedger.Proofs.CalendarText
import DraftLedger.Proofs.CellEquality
import DraftLedger.Proofs.CellText
import DraftLedger.Proofs.Chronicle
import DraftLedger.Proofs.Clocks
import DraftLedger.Proofs.Conditions
import DraftLedger.Proofs.Conservation
import DraftLedger.Proofs.Course
import DraftLedger.Proofs.Cutting
import DraftLedger.Proofs.Decimals
import DraftLedger.Proofs.Documents
import DraftLedger.Proofs.ExactlyOnce
import DraftLedger.Proofs.Fingerprint
import DraftLedger.Proofs.FollowUp
import DraftLedger.Proofs.Grouping
import DraftLedger.Proofs.Hearing
import DraftLedger.Proofs.History
import DraftLedger.Proofs.Isolation
import DraftLedger.Proofs.JsonPrefix
import DraftLedger.Proofs.JsonReading
import DraftLedger.Proofs.JsonText
import DraftLedger.Proofs.Kept
import DraftLedger.Proofs.KeyDetection
import DraftLedger.Proofs.KeyLearning
import DraftLedger.Proofs.KeyUniqueness
import DraftLedger.Proofs.LedgerView
import DraftLedger.Proofs.Listing
import DraftLedger.Proofs.Merging
import DraftLedger.Proofs.Mirror
import DraftLedger.Proofs.Moves
import DraftLedger.Proofs.NetEffect
import DraftLedger.Proofs.NumeralText
import DraftLedger.Proofs.Operations
import DraftLedger.Proofs.OtherTables
import DraftLedger.Proofs.Partition
import DraftLedger.Proofs.Placement
import DraftLedger.Proofs.PreImage
import DraftLedger.Proofs.Projection
import DraftLedger.Proofs.Quoting
import DraftLedger.Proofs.ReadBack
import DraftLedger.Proofs.Readings
import DraftLedger.Proofs.Refusals
import DraftLedger.Proofs.Registrations
import DraftLedger.Proofs.Revisions
import DraftLedger.Proofs.Rows
import DraftLedger.Proofs.Sample
import DraftLedger.Proofs.Scopes
import DraftLedger.Proofs.ShortestDigits
import DraftLedger.Proofs.Standing
import DraftLedger.Proofs.Statements
import DraftLedger.Proofs.StoredKeys
import DraftLedger.Proofs.TextBytes
import DraftLedger.Proofs.TimeOrder
import DraftLedger.Proofs.Truncation
import DraftLedger.Proofs.Unquoting
import DraftLedger.Proofs.WellFormed
import DraftLedger.Row
import DraftLedger.Script
import DraftLedger.Settings
import DraftLedger.Sql.Literal
import DraftLedger.Staging
import DraftLedger.Stamp
import DraftLedger.Store
import DraftLedger.Text.Base64
import DraftLedger.Text.Blank
import DraftLedger.Text.Digits
import DraftLedger.Text.Printable
import DraftLedger.Text.Quoted
import DraftLedger.Toml
import DraftLedger.Toml.Table
import DraftLedger.Uuid
