import TableStore.Endpoint
import TableStore.Main
import TableStore.Proofs.Endpoint.Bodies
import TableStore.Proofs.Endpoint.Serving
import TableStore.Proofs.Grid.Alignment
import TableStore.Proofs.Grid.Recovery
import TableStore.Proofs.Json.Lexemes
import TableStore.Proofs.Json.Printing
import TableStore.Proofs.Json.Texts
import TableStore.Proofs.Json.Trees
import TableStore.Proofs.Session.Atomicity
import TableStore.Proofs.Session.Commutation
import TableStore.Proofs.Session.Counts
import TableStore.Proofs.Session.Creation
import TableStore.Proofs.Session.Dump
import TableStore.Proofs.Session.Events
import TableStore.Proofs.Session.Integrity
import TableStore.Proofs.Session.Projections
import TableStore.Proofs.Session.Replies
import TableStore.Proofs.Shell.Statements
import TableStore.Proofs.Sql.Cuts
import TableStore.Proofs.Sql.Integers
import TableStore.Proofs.Sql.PrintedStatements
import TableStore.Proofs.Sql.Resumption
import TableStore.Proofs.Sql.Shapes
import TableStore.Proofs.Sql.Spellings
import TableStore.Proofs.Storage.Assignments
import TableStore.Proofs.Storage.Batches
import TableStore.Proofs.Storage.ColumnOrder
import TableStore.Proofs.Storage.Comparisons
import TableStore.Proofs.Storage.Conflicts
import TableStore.Proofs.Storage.Keys
import TableStore.Proofs.Storage.Refusals
import TableStore.Proofs.Storage.Repetition
import TableStore.Proofs.Storage.ValueList
import TableStore.Proofs.Text.Utf8
