import LockBench.Command
import LockBench.CommandLine.Commands
import LockBench.CommandLine.Form
import LockBench.CommandLine.Gather
import LockBench.CommandLine.Instruction
import LockBench.CommandLine.Markup
import LockBench.CommandLine.Synopsis
import LockBench.CommandLine.Topic
import LockBench.CommandLine.Usage
import LockBench.CommandLine.Value
import LockBench.CommandLine.Word
import LockBench.Config.Basic
import LockBench.Config.Document
import LockBench.Config.Store
import LockBench.Decimal
import LockBench.Discovery
import LockBench.Failure
import LockBench.Fixture
import LockBench.Host.Action
import LockBench.Host.Calendar
import LockBench.Host.EntryName
import LockBench.Host.FileTree
import LockBench.Host.Machine
import LockBench.Host.OsError
import LockBench.Host.Path
import LockBench.Host.Process
import LockBench.Host.Script
import LockBench.Journal
import LockBench.Json.Number
import LockBench.Json.Reader
import LockBench.Json.Token
import LockBench.Json.Value
import LockBench.Main
import LockBench.Manifest.Pipfile
import LockBench.Manifest.Project
import LockBench.Manifest.Requirement
import LockBench.Manifest.Store
import LockBench.Operation
import LockBench.Program
import LockBench.Report
import LockBench.Session.Group
import LockBench.Session.Harness
import LockBench.Session.Plan
import LockBench.Session.Seeding
import LockBench.Session.Timing
import LockBench.Shell.Quote
import LockBench.Style
import LockBench.Suite
import LockBench.Task.Configure
import LockBench.Task.Report
import LockBench.Task.Run
import LockBench.Task.Translate
import LockBench.Text.Blank
import LockBench.Text.Lines
import LockBench.Text.Utf8
import LockBench.Text.Visible
import LockBench.Toml.Magnitude
import LockBench.Toml.Reader
import LockBench.Toml.Scalar
import LockBench.Toml.Scan
import LockBench.Toml.Table
import LockBench.Toml.Value
import LockBench.Toml.Writer
import LockBench.Tool
import LockBench.Proofs.Shell.Quoting
import LockBench.Proofs.Shell.AndList
import LockBench.Proofs.Shell.Lines
import LockBench.Proofs.Command.ShellLine
import LockBench.Proofs.Host.Walk
import LockBench.Proofs.Shell.Removal
import LockBench.Proofs.Session.Directories
import LockBench.Proofs.Session.Layout
import LockBench.Proofs.Session.Preparation
import LockBench.Proofs.Host.Changes
import LockBench.Proofs.Host.Places
import LockBench.Proofs.Host.Scopes
import LockBench.Proofs.Host.Requests
import LockBench.Proofs.Host.Runs
import LockBench.Proofs.Session.Launches
import LockBench.Proofs.Session.Requests
import LockBench.Proofs.Session.World
import LockBench.Proofs.Session.Suites
import LockBench.Proofs.Session.Groups
import LockBench.Proofs.Session.Readiness
import LockBench.Proofs.Session.Course
import LockBench.Proofs.Session.Opening
import LockBench.Proofs.Session.Timing
import LockBench.Proofs.Toml.Grammar
import LockBench.Proofs.Toml.Strings
import LockBench.Proofs.Toml.Reading
import LockBench.Proofs.Toml.Quoting
import LockBench.Proofs.Toml.Writing
import LockBench.Proofs.Toml.Tables
import LockBench.Proofs.Manifest.Translation
import LockBench.Proofs.Config.Document
import LockBench.Proofs.Host.Written
import LockBench.Proofs.Config.Saved
import LockBench.Proofs.Session.Separation
import LockBench.Proofs.Host.Transcripts
import LockBench.Proofs.Session.Seeding
import LockBench.Proofs.Session.Submissions
import LockBench.Proofs.Session.Finding
import LockBench.Proofs.Session.Conduct
import LockBench.Proofs.Session.Arguments
import LockBench.Proofs.Shell.Operators
import LockBench.Proofs.Session.Install
import LockBench.Proofs.Session.Handover
import LockBench.Proofs.Host.Histories
import LockBench.Proofs.Session.Environments
import LockBench.Proofs.Session.Continuity
import LockBench.Proofs.Session.NoopSync
import LockBench.Proofs.Session.Names
import LockBench.Proofs.Host.Programs
import LockBench.Proofs.Session.Binaries
import LockBench.Proofs.Session.TimingProgram
import LockBench.Proofs.Session.Notes
import LockBench.Proofs.Config.Changing
import LockBench.Proofs.Config.Setting
import LockBench.Proofs.Session.Precedence
import LockBench.Proofs.Session.Log
import LockBench.Proofs.Session.Scenes
import LockBench.Proofs.Session.Residue
import LockBench.Proofs.Session.Loading
import LockBench.Proofs.Session.Exports
import LockBench.Proofs.Manifest.Rows
import LockBench.Proofs.Manifest.Entries
import LockBench.Proofs.Manifest.Unsupported
import LockBench.Proofs.Manifest.Layout
import LockBench.Proofs.Shell.Words
import LockBench.Proofs.Config.Succession
import LockBench.Proofs.Text.ByteOrder
import LockBench.Proofs.Host.EntryNames
import LockBench.Proofs.Host.Snapshots
import LockBench.Proofs.Session.Fixtures
import LockBench.Proofs.Json.Nesting
import LockBench.Proofs.Json.Numerals
import LockBench.Proofs.Json.Grammar
import LockBench.Proofs.Json.Reading
import LockBench.Proofs.Report.Documents
import LockBench.Proofs.Session.Enumeration
import LockBench.Proofs.Shell.Lists
import LockBench.Proofs.Shell.Execution
import LockBench.Proofs.Command.WorkingDirectory
import LockBench.Proofs.Report.Columns
import LockBench.Proofs.Session.Utterances
import LockBench.Proofs.Session.Quiet
import LockBench.Proofs.Session.Turns
import LockBench.Proofs.Session.Announcements
