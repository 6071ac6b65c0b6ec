import Intake.Archive.Args
import Intake.Archive.Directory
import Intake.Archive.Disk
import Intake.Archive.Manager
import Intake.Archive.Memory
import Intake.Archive.Metadata
import Intake.Archive.Store
import Intake.Backend.Basic
import Intake.Backend.Fetch
import Intake.Backend.Paged
import Intake.Backend.Registry
import Intake.Backend.Scripted
import Intake.Config
import Intake.Decimal.Binary64
import Intake.Decimal.Shortest
import Intake.Error
import Intake.Id
import Intake.Inspect
import Intake.Instant.Basic
import Intake.Instant.Calendar
import Intake.Instant.Text
import Intake.Item
import Intake.Job.Context
import Intake.Job.Execute
import Intake.Job.Fetch
import Intake.Job.Metadata
import Intake.Job.Request
import Intake.Job.Result
import Intake.Json.Double
import Intake.Json.Draft
import Intake.Json.Number
import Intake.Json.Token
import Intake.Json.Value
import Intake.Json.Written
import Intake.Keyed
import Intake.LogFormat
import Intake.Proofs.Job.Forward
import Intake.Proofs.Queue.Ledger
import Intake.Proofs.Stream.Counts
import Intake.Queue
import Intake.Request
import Intake.Source
import Intake.Stream
import Intake.Summary
import Intake.Supply
import Intake.Text.Blank
import Intake.Text.Hex
import Intake.Text.Pictured
import Intake.Text.Quoted
import Intake.Text.Utf8
import Intake.Uuid
import Intake.Wire.Error
import Intake.Wire.Format
import Intake.Wire.Record
import Intake.Proofs.Job.RunResult
import Intake.Proofs.Job.ResultMapping
import Intake.Proofs.Job.Execution
import Intake.Proofs.Json.Lexing
import Intake.Proofs.Json.Reading
import Intake.Proofs.Archive.Log
import Intake.Proofs.Archive.Places
import Intake.Proofs.Archive.Files
import Intake.Work
import Intake.Proofs.Archive.Handles
import Intake.Proofs.Archive.Session
import Intake.Proofs.Archive.FirstWins
import Intake.Proofs.Archive.Kept
import Intake.Proofs.Archive.Held
import Intake.Proofs.Backend.Steady
import Intake.Proofs.Backend.Unread
import Intake.Proofs.Backend.Scripted
import Intake.Proofs.Stream.Drain
import Intake.Proofs.Stream.Replay
import Intake.Proofs.Job.Course
import Intake.Proofs.Job.ResumePoint
import Intake.Proofs.Decimal.Nearest
import Intake.Proofs.Decimal.Shortest
import Intake.Proofs.Json.Numerals
import Intake.Proofs.Json.Depth
import Intake.Proofs.Archive.Description
import Intake.Proofs.Archive.Directories
import Intake.Proofs.Archive.Mirror
import Intake.Proofs.Archive.Refinement
import Intake.Proofs.Job.Consumable
import Intake.Proofs.Decimal.Whole
import Intake.Proofs.Wire.Stable
import Intake.Proofs.Wire.ItemForm
import Intake.Proofs.Archive.Views
import Intake.Proofs.Stream.History
import Intake.Proofs.Stream.Composition
import Intake.Proofs.Archive.Tree
import Intake.Proofs.Archive.Reached
import Intake.Proofs.Archive.Framing
import Intake.Proofs.Archive.Search
import Intake.Proofs.Archive.Found
import Intake.Proofs.Archive.Seen
import Intake.Proofs.Archive.Added
import Intake.Proofs.Source.Recording
import Intake.Proofs.Stream.Workspace
import Intake.Proofs.Job.ArchiveEffects
import Intake.Proofs.Json.Strings
import Intake.Proofs.Json.Parts
import Intake.Proofs.Request.Key
import Intake.Proofs.Wire.Settled
import Intake.Proofs.Request.Form
import Intake.Proofs.Job.ResultForm
import Intake.Proofs.Stream.Accumulation
import Intake.Proofs.Queue.History
import Intake.Proofs.Job.Identity
import Intake.Proofs.Stream.Scripted
import Intake.Proofs.Stream.Bounded
