import RepoFinder.CommandLine
import RepoFinder.Discovery.Answer
import RepoFinder.Discovery.Engine
import RepoFinder.Discovery.Machine
import RepoFinder.Discovery.Marks
import RepoFinder.EntryClass
import RepoFinder.Environment
import RepoFinder.FileSystem.Basic
import RepoFinder.FileSystem.Edit
import RepoFinder.FileSystem.Failure
import RepoFinder.FileSystem.Listing
import RepoFinder.FileSystem.Walk
import RepoFinder.Git.Answer
import RepoFinder.Git.Checkout
import RepoFinder.Git.Config
import RepoFinder.Git.Glob
import RepoFinder.Git.Graft
import RepoFinder.Git.Inclusion
import RepoFinder.Git.Line
import RepoFinder.Git.Link
import RepoFinder.Git.Refspec
import RepoFinder.Git.Remote
import RepoFinder.Git.Value
import RepoFinder.Json.Basic
import RepoFinder.Json.Path
import RepoFinder.Json.Printer
import RepoFinder.Json.Reader
import RepoFinder.Json.Record
import RepoFinder.Main
import RepoFinder.Path.Basic
import RepoFinder.Path.Clean
import RepoFinder.Program
import RepoFinder.Proofs.Discovery.Calls
import RepoFinder.Proofs.Discovery.Cancellation
import RepoFinder.Proofs.Discovery.Healing
import RepoFinder.Proofs.Discovery.History
import RepoFinder.Proofs.Discovery.LastWriter
import RepoFinder.Proofs.Discovery.Lives
import RepoFinder.Proofs.Discovery.Marking
import RepoFinder.Proofs.Discovery.Provenance
import RepoFinder.Proofs.Discovery.Recognition
import RepoFinder.Proofs.Discovery.Revalidation
import RepoFinder.Proofs.Discovery.Service
import RepoFinder.Proofs.Discovery.Sharing
import RepoFinder.Proofs.Discovery.SingleFlight
import RepoFinder.Proofs.Discovery.Spellings
import RepoFinder.Proofs.Discovery.Streaming
import RepoFinder.Proofs.Discovery.Trail
import RepoFinder.Proofs.Discovery.Twins
import RepoFinder.Proofs.Discovery.Warmth
import RepoFinder.Proofs.FileSystem.Census
import RepoFinder.Proofs.FileSystem.Detours
import RepoFinder.Proofs.FileSystem.Faces
import RepoFinder.Proofs.FileSystem.Folders
import RepoFinder.Proofs.FileSystem.Frames
import RepoFinder.Proofs.FileSystem.Grounds
import RepoFinder.Proofs.FileSystem.Landmarks
import RepoFinder.Proofs.FileSystem.Slots
import RepoFinder.Proofs.FileSystem.Times
import RepoFinder.Proofs.FileSystem.Ways
import RepoFinder.Proofs.FileSystem.Writing
import RepoFinder.Proofs.Git.Damage
import RepoFinder.Proofs.Json.Extent
import RepoFinder.Proofs.Json.Record
import RepoFinder.Proofs.Json.RoundTrip
import RepoFinder.Proofs.Path.Children
import RepoFinder.Proofs.Path.Key
import RepoFinder.Proofs.Path.NormalForm
import RepoFinder.Proofs.Path.Order
import RepoFinder.Proofs.Path.Segments
import RepoFinder.Proofs.Path.Written
import RepoFinder.Proofs.Scan.Accounting
import RepoFinder.Proofs.Scan.Allowance
import RepoFinder.Proofs.Scan.BreadthFirst
import RepoFinder.Proofs.Scan.Budget
import RepoFinder.Proofs.Scan.Course
import RepoFinder.Proofs.Scan.Custody
import RepoFinder.Proofs.Scan.Decision
import RepoFinder.Proofs.Scan.Delivery
import RepoFinder.Proofs.Scan.Dialogue
import RepoFinder.Proofs.Scan.Ending
import RepoFinder.Proofs.Scan.Exactness
import RepoFinder.Proofs.Scan.Exhaustion
import RepoFinder.Proofs.Scan.Generations
import RepoFinder.Proofs.Scan.History
import RepoFinder.Proofs.Scan.Interruption
import RepoFinder.Proofs.Scan.Ledger
import RepoFinder.Proofs.Scan.Quiescence
import RepoFinder.Proofs.Scan.Reach
import RepoFinder.Proofs.Scan.Schedules
import RepoFinder.Proofs.Scan.Shifting
import RepoFinder.Proofs.Scan.Shutdown
import RepoFinder.Proofs.Scan.Standing
import RepoFinder.Proofs.Scan.Termination
import RepoFinder.Proofs.Scan.Timeline
import RepoFinder.Proofs.Scan.Unasked
import RepoFinder.Proofs.Scan.Variants
import RepoFinder.Proofs.SearchRoots
import RepoFinder.Proofs.Settings.RoundTrip
import RepoFinder.Proofs.Settings.Timed
import RepoFinder.Proofs.Snapshot.Aftermath
import RepoFinder.Proofs.Snapshot.Damage
import RepoFinder.Proofs.Snapshot.Drafts
import RepoFinder.Proofs.Snapshot.Interleaving
import RepoFinder.Proofs.Snapshot.Return
import RepoFinder.Proofs.Snapshot.RoundTrip
import RepoFinder.Proofs.Snapshot.Saved
import RepoFinder.Proofs.Snapshot.Traffic
import RepoFinder.Proofs.Snapshot.Untouched
import RepoFinder.Proofs.Text.Decimal
import RepoFinder.Proofs.Text.Lowercase
import RepoFinder.Proofs.Text.Plain
import RepoFinder.Proofs.Text.Utf8
import RepoFinder.Proofs.Time.Calendar
import RepoFinder.Proofs.Time.Rfc3339
import RepoFinder.Proofs.Timeouts
import RepoFinder.Report
import RepoFinder.Repository
import RepoFinder.Scan.Machine
import RepoFinder.Scan.Queue
import RepoFinder.Scan.Run
import RepoFinder.SearchRoots
import RepoFinder.Settings.Basic
import RepoFinder.Settings.File
import RepoFinder.Settings.Format
import RepoFinder.Settings.Override
import RepoFinder.Snapshot.Basic
import RepoFinder.Snapshot.Format
import RepoFinder.Snapshot.Store
import RepoFinder.Text.Blank
import RepoFinder.Text.CaseTable
import RepoFinder.Text.Decimal
import RepoFinder.Text.Hexadecimal
import RepoFinder.Text.Lowercase
import RepoFinder.Text.Utf8
import RepoFinder.Time.Calendar
import RepoFinder.Time.Rfc3339
import RepoFinder.Time.Timestamp
import RepoFinder.Toml.Document
import RepoFinder.Toml.Number
import RepoFinder.Toml.Printer
import RepoFinder.Toml.Reader
import RepoFinder.Toml.Text
import RepoFinder.Toml.Value
