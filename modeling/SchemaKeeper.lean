import SchemaKeeper.Engine.Script
import SchemaKeeper.Engine.Server
import SchemaKeeper.Main
import SchemaKeeper.Operation
import SchemaKeeper.Proofs.Session.Journal
import SchemaKeeper.Proofs.Session.Faithful
import SchemaKeeper.Proofs.Synchronization.Account
import SchemaKeeper.Proofs.Synchronization.Layout
import SchemaKeeper.Proofs.Synchronization.Plan
import SchemaKeeper.Proofs.Synchronization.Tracking
import SchemaKeeper.Proofs.Synchronization.Tables
import SchemaKeeper.Proofs.Synchronization.Convergence
import SchemaKeeper.Proofs.Statement.Lexeme
import SchemaKeeper.Proofs.Statement.Value
import SchemaKeeper.Proofs.Statement.Condition
import SchemaKeeper.Proofs.Statement.Meaning
import SchemaKeeper.Proofs.Statement.Rows
import SchemaKeeper.Proofs.Statement.Texts
import SchemaKeeper.Proofs.Session.Conduct
import SchemaKeeper.Proofs.Synchronization.Scope
import SchemaKeeper.Proofs.Synchronization.Statements
import SchemaKeeper.Proofs.Synchronization.Gate
import SchemaKeeper.Proofs.Synchronization.Drops
import SchemaKeeper.Proofs.Synchronization.Building
import SchemaKeeper.Proofs.Session.Steady
import SchemaKeeper.Proofs.Session.Moments
import SchemaKeeper.Proofs.Session.Exact
import SchemaKeeper.Proofs.Synchronization.Abreast
import SchemaKeeper.Proofs.Synchronization.Rebuild
import SchemaKeeper.Proofs.Synchronization.Rest
import SchemaKeeper.Proofs.Synchronization.Stability
import SchemaKeeper.Proofs.Synchronization.Forecast
import SchemaKeeper.Proofs.Synchronization.Attempts
import SchemaKeeper.Proofs.Synchronization.Leftovers
import SchemaKeeper.Proofs.Session.Composition
import SchemaKeeper.Proofs.Session.Lifecycle
import SchemaKeeper.Proofs.Session.Diagnostics
import SchemaKeeper.Proofs.Statement.Grammar
import SchemaKeeper.Proofs.Synchronization.Pieces
import SchemaKeeper.Proofs.Synchronization.Names
import SchemaKeeper.Proofs.Schema.Grammar
import SchemaKeeper.Proofs.Statement.Quotation
import SchemaKeeper.Proofs.Schema.Distinct
import SchemaKeeper.Proofs.Synchronization.Indexes
import SchemaKeeper.Proofs.Statement.Companion
import SchemaKeeper.Proofs.Session.Selections
import SchemaKeeper.Proofs.Session.Refusals
import SchemaKeeper.Proofs.Statement.ColumnValues
import SchemaKeeper.Proofs.Statement.Insertion
import SchemaKeeper.Proofs.Session.Insertions
import SchemaKeeper.Proofs.Number.Nearest
import SchemaKeeper.Proofs.Number.Integers
import SchemaKeeper.Proofs.Schema.Defaults
import SchemaKeeper.Proofs.Schema.TextDefaults
import SchemaKeeper.Proofs.Synchronization.RebuiltDefaults
import SchemaKeeper.Proofs.Session.WholeNumbers
import SchemaKeeper.Proofs.Json.Integers
import SchemaKeeper.Proofs.Statement.DocumentIntegers
import SchemaKeeper.Proofs.Schema.DisplayWidth
import SchemaKeeper.Proofs.Statement.Aggregates
import SchemaKeeper.Proofs.Statement.SelectItems
import SchemaKeeper.Proofs.Statement.Calls
import SchemaKeeper.Proofs.Schema.Attribution
