import FormatServer.Act
import FormatServer.CommandLine.Arguments
import FormatServer.CommandLine.Flag
import FormatServer.CommandLine.Launch
import FormatServer.CommandLine.Token
import FormatServer.Document.Lines
import FormatServer.Document.Position
import FormatServer.Document.Snapshot
import FormatServer.Document.Table
import FormatServer.Edit.Span
import FormatServer.Edit.Text
import FormatServer.Engine.Answer
import FormatServer.Engine.Call
import FormatServer.Engine.Language
import FormatServer.Engine.Process
import FormatServer.Failure
import FormatServer.Files
import FormatServer.IgnoreFile
import FormatServer.Installation.Lookup
import FormatServer.Installation.Manifest
import FormatServer.Json.Basic
import FormatServer.Json.Canonical
import FormatServer.Json.Display
import FormatServer.Json.Key
import FormatServer.Json.Limits
import FormatServer.Json.Reader
import FormatServer.LocalConfiguration
import FormatServer.Log
import FormatServer.Main
import FormatServer.Number.Binary64
import FormatServer.Options
import FormatServer.Path.Basic
import FormatServer.Path.Spelling
import FormatServer.Pipeline
import FormatServer.ServerConfig
import FormatServer.Session.Params
import FormatServer.Session.Run
import FormatServer.Session.Step
import FormatServer.Session.Task
import FormatServer.Settings
import FormatServer.SettingsCache
import FormatServer.Text.Blank
import FormatServer.Text.Digit
import FormatServer.Text.Hex
import FormatServer.Text.Integer
import FormatServer.Text.Lowercase
import FormatServer.Text.Printable
import FormatServer.Text.Quoted
import FormatServer.Text.Ranges
import FormatServer.Text.Split
import FormatServer.Text.Utf16
import FormatServer.Text.Utf8
import FormatServer.Uri.Authority
import FormatServer.Uri.Basic
import FormatServer.Uri.Percent
import FormatServer.Workspace.Folder
import FormatServer.Workspace.Search
import FormatServer.Workspace.Setting
import FormatServer.World
import FormatServer.Proofs.Action
import FormatServer.Proofs.Document.Lines
import FormatServer.Proofs.Document.Offset
import FormatServer.Proofs.Document.Position
import FormatServer.Proofs.Document.Normal
import FormatServer.Proofs.Document.Order
import FormatServer.Proofs.Edit.Difference
import FormatServer.Proofs.Edit.Answer
import FormatServer.Proofs.Path.Base
import FormatServer.Proofs.Settings
import FormatServer.Proofs.SettingsCache
import FormatServer.Proofs.Json.Fields
import FormatServer.Proofs.Options
import FormatServer.Proofs.Pipeline.Alike
import FormatServer.Proofs.Pipeline.Reach
import FormatServer.Proofs.Pipeline.Calls
import FormatServer.Proofs.Installation.Moves
import FormatServer.Proofs.World.Moves
import FormatServer.Proofs.World.Frame
import FormatServer.Proofs.World.Safe
import FormatServer.Proofs.World.Alike
import FormatServer.Proofs.Session.Request
import FormatServer.Proofs.Session.Steps
import FormatServer.Proofs.Session.Tasks
import FormatServer.Proofs.Session.Answered
import FormatServer.Proofs.Session.Untrusted
import FormatServer.Proofs.Session.Noninterference
import FormatServer.Proofs.Session.Fetches
import FormatServer.Proofs.Session.Shared
import FormatServer.Proofs.Pipeline.Gates
import FormatServer.Proofs.Session.Trust
import FormatServer.Proofs.World.Listed
import FormatServer.Proofs.Session.Processes
import FormatServer.Proofs.World.Orderly
import FormatServer.Proofs.Pipeline.Contained
import FormatServer.Proofs.World.Contained
import FormatServer.Proofs.Session.Contained
import FormatServer.Proofs.Edit.Minimal
import FormatServer.Proofs.Edit.Expressible
import FormatServer.Proofs.Document.CodeUnits
import FormatServer.Proofs.Pipeline.Forced
import FormatServer.Proofs.Installation.Manifest
import FormatServer.Proofs.Installation.Candidates
import FormatServer.Proofs.Installation.Choice
import FormatServer.Proofs.LocalConfiguration.Inquiry
import FormatServer.Proofs.LocalConfiguration.Outcome
import FormatServer.Proofs.Workspace.Folder
import FormatServer.Proofs.Workspace.Absolute
import FormatServer.Proofs.Workspace.Tilde
import FormatServer.Proofs.Path.Parse
import FormatServer.Proofs.Workspace.Search
import FormatServer.Proofs.Workspace.Ignored
import FormatServer.Proofs.Installation.Repeated
import FormatServer.Proofs.Session.Lookups
import FormatServer.Proofs.Installation.Interleaved
import FormatServer.Proofs.Session.Moves
import FormatServer.Proofs.World.Ledger
import FormatServer.Proofs.Session.Once
import FormatServer.Proofs.Workspace.Chosen
import FormatServer.Proofs.Session.Folders
import FormatServer.Proofs.Text.Utf8
import FormatServer.Proofs.Uri.Percent
import FormatServer.Proofs.Uri.File
import FormatServer.Proofs.Session.Files
import FormatServer.Proofs.Files
import FormatServer.Proofs.Pipeline.Virtual
import FormatServer.Proofs.World.Overlooked
import FormatServer.Proofs.Session.Virtual
import FormatServer.Proofs.Workspace.Climb
import FormatServer.Proofs.Document.Table
import FormatServer.Proofs.Path.Extension
import FormatServer.Proofs.Language
import FormatServer.Proofs.Json.Limits
import FormatServer.Proofs.Json.Order
import FormatServer.Proofs.Json.Scalar
import FormatServer.Proofs.Json.Canonical
