import ClusterAgents.Actuator.Basic
import ClusterAgents.Actuator.Rehearsal
import ClusterAgents.Actuator.Task
import ClusterAgents.Agent
import ClusterAgents.Batch.Script
import ClusterAgents.Broker
import ClusterAgents.CommandLine.Arguments
import ClusterAgents.CommandLine.Program
import ClusterAgents.Config
import ClusterAgents.Document
import ClusterAgents.Error
import ClusterAgents.Event
import ClusterAgents.Fields
import ClusterAgents.File.Path
import ClusterAgents.File.Tree
import ClusterAgents.Job
import ClusterAgents.Json.Reader
import ClusterAgents.Json.Value
import ClusterAgents.Ledger
import ClusterAgents.Main
import ClusterAgents.Notice
import ClusterAgents.Number.Binary64
import ClusterAgents.Number.Decimal
import ClusterAgents.Remote.Channel
import ClusterAgents.Remote.Host
import ClusterAgents.Remote.Machine
import ClusterAgents.Resource.Basic
import ClusterAgents.Resource.Render
import ClusterAgents.Resource.Requirement
import ClusterAgents.Scheduler
import ClusterAgents.Schema.Gate
import ClusterAgents.Schema.Store
import ClusterAgents.Schema.Version
import ClusterAgents.Table
import ClusterAgents.Text.Basic
import ClusterAgents.Text.Quoted
import ClusterAgents.Text.Scan
import ClusterAgents.Text.Utf8
import ClusterAgents.Time.Clock
import ClusterAgents.Time.Stamp
import ClusterAgents.Toml.Reader
import ClusterAgents.Toml.Scalar
import ClusterAgents.Toml.Text
import ClusterAgents.Toml.Tree
import ClusterAgents.Proofs.Accepted
import ClusterAgents.Proofs.Admission
import ClusterAgents.Proofs.Batch.Directives
import ClusterAgents.Proofs.Batch.Exports
import ClusterAgents.Proofs.Batch.FanOut
import ClusterAgents.Proofs.Batch.Header
import ClusterAgents.Proofs.Batch.Sheets
import ClusterAgents.Proofs.Batch.Tokens
import ClusterAgents.Proofs.Channels
import ClusterAgents.Proofs.Checks
import ClusterAgents.Proofs.Clocks
import ClusterAgents.Proofs.Course.Agents
import ClusterAgents.Proofs.Course.Batches
import ClusterAgents.Proofs.Course.Cancellation
import ClusterAgents.Proofs.Course.Flush
import ClusterAgents.Proofs.Course.Lockstep
import ClusterAgents.Proofs.Course.Notices
import ClusterAgents.Proofs.Course.Reports
import ClusterAgents.Proofs.Course.Reproduced
import ClusterAgents.Proofs.Course.Talk
import ClusterAgents.Proofs.Course.Uses
import ClusterAgents.Proofs.Course.Worlds
import ClusterAgents.Proofs.Digits
import ClusterAgents.Proofs.Directories
import ClusterAgents.Proofs.Drafts
import ClusterAgents.Proofs.Files.Changes
import ClusterAgents.Proofs.Files.Spelling
import ClusterAgents.Proofs.Files.Trees
import ClusterAgents.Proofs.Files.Ways
import ClusterAgents.Proofs.JobIds
import ClusterAgents.Proofs.Launches
import ClusterAgents.Proofs.Ledgers
import ClusterAgents.Proofs.Lines
import ClusterAgents.Proofs.Listings
import ClusterAgents.Proofs.Numerals
import ClusterAgents.Proofs.Overlap.Agents
import ClusterAgents.Proofs.Overlap.Balance
import ClusterAgents.Proofs.Overlap.Cancelled
import ClusterAgents.Proofs.Overlap.Changes
import ClusterAgents.Proofs.Overlap.Confined
import ClusterAgents.Proofs.Overlap.Files
import ClusterAgents.Proofs.Overlap.Index
import ClusterAgents.Proofs.Overlap.Marks
import ClusterAgents.Proofs.Overlap.Orders
import ClusterAgents.Proofs.Overlap.Outcomes
import ClusterAgents.Proofs.Overlap.Protocol
import ClusterAgents.Proofs.Overlap.Recovered
import ClusterAgents.Proofs.Overlap.Requests
import ClusterAgents.Proofs.Overlap.Shown
import ClusterAgents.Proofs.Overlap.Sound
import ClusterAgents.Proofs.Overlap.Tasks
import ClusterAgents.Proofs.Overlap.Tidy
import ClusterAgents.Proofs.Overlap.World
import ClusterAgents.Proofs.Paths
import ClusterAgents.Proofs.Resource.Amounts
import ClusterAgents.Proofs.Resource.Bounds
import ClusterAgents.Proofs.Resource.Rendering
import ClusterAgents.Proofs.Resource.Values
import ClusterAgents.Proofs.Schema.History
import ClusterAgents.Proofs.Schema.Reset
import ClusterAgents.Proofs.Schema.Texts
import ClusterAgents.Proofs.Shell.AndLists
import ClusterAgents.Proofs.Shell.Quoting
import ClusterAgents.Proofs.Shell.Reader
import ClusterAgents.Proofs.Shell.Session
import ClusterAgents.Proofs.Shell.Words
import ClusterAgents.Proofs.Steps
import ClusterAgents.Proofs.Tables
import ClusterAgents.Proofs.TimeLimits
import ClusterAgents.Proofs.Utf8
