import TextTables.Condition.Evaluation
import TextTables.Main
import TextTables.Session
import TextTables.Shell
import TextTables.Statement.Reader
import TextTables.Store
import TextTables.Proofs.Session.Halfway
import TextTables.Proofs.Session.Reloading
import TextTables.Proofs.Session.Effects
import TextTables.Proofs.Table.KeyColumn
import TextTables.Proofs.Store.Reading
import TextTables.Proofs.Session.Visits
import TextTables.Proofs.Statement.Quoting
import TextTables.Proofs.Statement.RoundTrip
import TextTables.Proofs.Strict
import TextTables.Proofs.Table.Positions
import TextTables.Proofs.Session.Positions
import TextTables.Proofs.Disk.Standing
import TextTables.Proofs.Store.Headers
import TextTables.Proofs.Session.KeyColumn
import TextTables.Proofs.Store.Confinement
import TextTables.Proofs.Store.Reopening
import TextTables.Proofs.Session.Events
import TextTables.Proofs.Session.Lifetimes
import TextTables.Proofs.Session.Healing
import TextTables.Proofs.Session.Overwriting
import TextTables.Proofs.Session.Continuing
import TextTables.Proofs.Shell.LineBreaks
import TextTables.Proofs.Session.Joins
import TextTables.Proofs.Session.Partition
import TextTables.Proofs.Session.Updating
import TextTables.Proofs.Session.Repeating
import TextTables.Proofs.Session.Filtering
import TextTables.Proofs.Session.Finding
import TextTables.Proofs.Condition.Words
import TextTables.Proofs.Session.Integers
import TextTables.Proofs.Store.Resaving
import TextTables.Proofs.Store.Orders
import TextTables.Proofs.Table.Mutation
import TextTables.Proofs.Session.Altering
import TextTables.Proofs.Session.Showing
import TextTables.Proofs.Statement.Commands
import TextTables.Proofs.Statement.Harmless
import TextTables.Proofs.Statement.Literals
import TextTables.Proofs.Statement.Selecting
import TextTables.Proofs.Shell.Startup
