import SparseTables.Settings.Basic
import SparseTables.Json.Reader
import SparseTables.Json.Writer
import SparseTables.Json.Codec
import SparseTables.Query.Draft
import SparseTables.RowOrder
import SparseTables.Session.Listing
import SparseTables.Session.Read
import SparseTables.Script.World
import SparseTables.Proofs.Contents.Sound
import SparseTables.Proofs.Program.Runs
import SparseTables.Proofs.Contents.Additions
import SparseTables.Proofs.Contents.Changes
import SparseTables.Proofs.Contents.Views
import SparseTables.Proofs.Program.Durable
import SparseTables.Proofs.Program.Ensures
import SparseTables.Proofs.Program.Rules
import SparseTables.Proofs.Session.Defining
import SparseTables.Proofs.Session.Histories
import SparseTables.Proofs.Session.Outcomes
import SparseTables.Proofs.Cell
import SparseTables.Proofs.Session.Selecting
import SparseTables.Proofs.Query.Statements
import SparseTables.Proofs.Session.Naming
import SparseTables.Proofs.Session.Searching
import SparseTables.Proofs.Session.Keys
import SparseTables.Proofs.Program.Settled
import SparseTables.Proofs.Session.Coherence
import SparseTables.Proofs.Session.Settled
import SparseTables.Proofs.Session.Forgetting
import SparseTables.Proofs.Tasks.Slots
import SparseTables.Proofs.Session.Interning
import SparseTables.Proofs.Sessions.Coherence
import SparseTables.Proofs.Sessions.Convergence
import SparseTables.Proofs.Sessions.Serial
import SparseTables.Proofs.Transactions.Undoing
import SparseTables.Proofs.Session.Compiling
import SparseTables.Proofs.Session.Retrieving
import SparseTables.Proofs.Session.Restarting
import SparseTables.Proofs.Session.Renewing
import SparseTables.Proofs.Session.Writing
import SparseTables.Proofs.Session.Fixing
import SparseTables.Proofs.Session.Deleting
import SparseTables.Proofs.Session.Scoping
import SparseTables.Proofs.Session.Spelling
import SparseTables.Proofs.Session.Enduring
import SparseTables.Proofs.Session.Counting
import SparseTables.Proofs.Query.References
import SparseTables.Proofs.Query.Checking
import SparseTables.Proofs.Query.Continuing
import SparseTables.Proofs.Session.Timing
import SparseTables.Proofs.Integers
import SparseTables.Proofs.Keeper
import SparseTables.Proofs.Retry
import SparseTables.Proofs.Json
