import Scrutiny.Chunk.Record
import Scrutiny.Files.Race
import Scrutiny.Main
import Scrutiny.Review.Schedule
import Scrutiny.Review.Script
import Scrutiny.Proofs.Text.LineIndex
import Scrutiny.Proofs.Chunk.Parts
import Scrutiny.Proofs.Chunk.Guard
import Scrutiny.Proofs.Chunk.Location
import Scrutiny.Proofs.Json.RoundTrip
import Scrutiny.Proofs.Text.Utf8
import Scrutiny.Proofs.Files.Actions
import Scrutiny.Proofs.Path
import Scrutiny.Proofs.Files.Below
import Scrutiny.Proofs.Cache.Contents
import Scrutiny.Proofs.Cache.Entry
import Scrutiny.Proofs.Cache.Store
import Scrutiny.Proofs.Cache.Refinement
import Scrutiny.Proofs.Decimal.Rounding
import Scrutiny.Proofs.Decimal.Shortest
import Scrutiny.Proofs.Json.Doubles
import Scrutiny.Proofs.Json.Fits
import Scrutiny.Proofs.Json.Depth
import Scrutiny.Proofs.Cache.Reread
import Scrutiny.Proofs.Cache.Writing
import Scrutiny.Proofs.Files.Attempt
import Scrutiny.Proofs.Files.Place
import Scrutiny.Cache.Store
import Scrutiny.Proofs.Files.Interruption
import Scrutiny.Proofs.Cache.Interruption
import Scrutiny.Proofs.Concurrency.Locks
import Scrutiny.Proofs.Concurrency.Permits
import Scrutiny.Proofs.Schedule.Step
import Scrutiny.Proofs.Schedule.Exclusion
import Scrutiny.Proofs.Schedule.Progress
import Scrutiny.Proofs.Schedule.Contents
import Scrutiny.Proofs.Schedule.FirstReply
import Scrutiny.Review.Release
import Scrutiny.Proofs.Inference.Attempts
import Scrutiny.Proofs.Review.Readback
import Scrutiny.Proofs.Review.Regular
import Scrutiny.Proofs.Review.Inferences
import Scrutiny.Review.Concurrent
import Scrutiny.Proofs.Review.Actions
import Scrutiny.Proofs.Schedule.Outcome
import Scrutiny.Proofs.Schedule.Sequence
import Scrutiny.Proofs.Schedule.Determinate
import Scrutiny.Proofs.InOrder
import Scrutiny.Proofs.Review.Concurrent
import Scrutiny.Proofs.Review.AnyOrder
import Scrutiny.Proofs.Review.Repetition
import Scrutiny.Proofs.Chunk.Coverage
import Scrutiny.Proofs.Review.Lines
import Scrutiny.Proofs.AbsolutePath
import Scrutiny.Proofs.Files.Spared
import Scrutiny.Proofs.Review.Artifacts
import Scrutiny.Proofs.Review.Project
import Scrutiny.Inference.Client
import Scrutiny.Proofs.Review.Prompts
import Scrutiny.Proofs.Schedule.Tally
import Scrutiny.Proofs.Schedule.Refilled
import Scrutiny.Proofs.Review.Forced
import Scrutiny.Review.Runs
import Scrutiny.Proofs.Review.Runs
import Scrutiny.Proofs.Cache.HoldsOnly
import Scrutiny.Proofs.Schedule.Files
import Scrutiny.Proofs.Text.Lines
import Scrutiny.Proofs.Review.UsableOnly
import Scrutiny.Proofs.Review.Failures
import Scrutiny.Proofs.Review.Beside
import Scrutiny.Proofs.Concurrency.Exclusion
import Scrutiny.Proofs.Scan.Walk
import Scrutiny.Proofs.Scan.Unchanged
import Scrutiny.Proofs.Review.Locks
import Scrutiny.Proofs.Review.Accounting
import Scrutiny.Proofs.Rationale.Store
import Scrutiny.Proofs.Rationale.Places
import Scrutiny.Proofs.Rationale.Extraction
import Scrutiny.Proofs.Rationale.Resumed
import Scrutiny.Proofs.Documents.Requests
import Scrutiny.Proofs.Documents.Stages
import Scrutiny.Proofs.Documents.Design
import Scrutiny.Proofs.Schedule.Unblocked
import Scrutiny.Proofs.Documents.SideBySide
import Scrutiny.Proofs.Review.Spelled
import Scrutiny.Proofs.Files.Race
import Scrutiny.Proofs.Chunk.Scopes
import Scrutiny.Proofs.Chunk.Indentation
import Scrutiny.Proofs.Chunk.Degraded
import Scrutiny.Proofs.Grammar.Trees
import Scrutiny.Proofs.Chunk.Definitions
import Scrutiny.Proofs.Chunk.Trees
import Scrutiny.Proofs.Grammar.Reads
import Scrutiny.Proofs.Grammar.Definitions
import Scrutiny.Proofs.Chunk.Blank
import Scrutiny.Proofs.Json.Extension
import Scrutiny.Proofs.Inference.Wrapped
import Scrutiny.Proofs.Cache.Encoding
import Scrutiny.Proofs.Documents.Batches
import Scrutiny.Proofs.Documents.Questions
import Scrutiny.Proofs.Review.Issues
import Scrutiny.Proofs.Files.AllOrNothing
import Scrutiny.Proofs.Grammar.Forward
import Scrutiny.Proofs.Grammar.Tokens
import Scrutiny.Proofs.Chunk.Outermost
import Scrutiny.Proofs.Grammar.Blocks
import Scrutiny.Proofs.Chunk.DocStrings
import Scrutiny.Proofs.Settings.Usable
import Scrutiny.Proofs.Concurrency.Gauges
import Scrutiny.Proofs.Json.Records
import Scrutiny.Proofs.Rationale.Records
import Scrutiny.Proofs.Scan.Globs
import Scrutiny.Proofs.Scan.Ignored
