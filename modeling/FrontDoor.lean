import FrontDoor.Address.Ip
import FrontDoor.Address.Socket
import FrontDoor.Address.Table
import FrontDoor.Bytes
import FrontDoor.CommandLine.Invocation
import FrontDoor.CommandLine.Load
import FrontDoor.CommandLine.Manual
import FrontDoor.CommandLine.Opt
import FrontDoor.CommandLine.Reading
import FrontDoor.CommandLine.Refusal
import FrontDoor.CommandLine.Serve
import FrontDoor.CommandLine.Word
import FrontDoor.Console.Paint
import FrontDoor.Dictionary
import FrontDoor.Door.Basic
import FrontDoor.Door.Join
import FrontDoor.Door.Key
import FrontDoor.Door.Serve
import FrontDoor.Http.Message
import FrontDoor.Http.Method
import FrontDoor.Http.Percent
import FrontDoor.Http.Target
import FrontDoor.Http.Wire
import FrontDoor.Json.HtmlSafe
import FrontDoor.Json.StringMap
import FrontDoor.Json.Writer
import FrontDoor.Load.Drive
import FrontDoor.Load.Launch
import FrontDoor.Load.Plan
import FrontDoor.Load.Report
import FrontDoor.Load.Task
import FrontDoor.Load.Uuid
import FrontDoor.Main
import FrontDoor.Metrics.Exposition
import FrontDoor.Metrics.Histogram
import FrontDoor.Metrics.Hub
import FrontDoor.Metrics.Registry
import FrontDoor.Metrics.Requests
import FrontDoor.Metrics.Scrape
import FrontDoor.Metrics.Series
import FrontDoor.Metrics.Shared
import FrontDoor.Number.Binary64
import FrontDoor.Number.Count
import FrontDoor.Number.Shortest
import FrontDoor.Program
import FrontDoor.Proofs.Address.Authority
import FrontDoor.Proofs.Address.Socket
import FrontDoor.Proofs.Address.Table
import FrontDoor.Proofs.CommandLine.Invocations
import FrontDoor.Proofs.CommandLine.Slots
import FrontDoor.Proofs.CommandLine.Spelling
import FrontDoor.Proofs.Dictionary
import FrontDoor.Proofs.Door.Accounting
import FrontDoor.Proofs.Door.Calls
import FrontDoor.Proofs.Door.Contents
import FrontDoor.Proofs.Door.Documents
import FrontDoor.Proofs.Door.Joins
import FrontDoor.Proofs.Door.KeyAnswers
import FrontDoor.Proofs.Door.KeyPaths
import FrontDoor.Proofs.Door.Opacity
import FrontDoor.Proofs.Door.Permanence
import FrontDoor.Proofs.Door.Refusals
import FrontDoor.Proofs.Door.Routing
import FrontDoor.Proofs.Door.Run
import FrontDoor.Proofs.Door.Writing
import FrontDoor.Proofs.Http.Percent
import FrontDoor.Proofs.Json.Acceptance
import FrontDoor.Proofs.Json.Fragments
import FrontDoor.Proofs.Json.Grammar
import FrontDoor.Proofs.Json.HtmlSafe
import FrontDoor.Proofs.Json.RoundTrip
import FrontDoor.Proofs.Load.Accounting
import FrontDoor.Proofs.Load.Agreement
import FrontDoor.Proofs.Load.Launch
import FrontDoor.Proofs.Metrics.Counts
import FrontDoor.Proofs.Metrics.Exposition
import FrontDoor.Proofs.Metrics.Histogram
import FrontDoor.Proofs.Metrics.History
import FrontDoor.Proofs.Metrics.Lines
import FrontDoor.Proofs.Metrics.Registration
import FrontDoor.Proofs.Metrics.Reordering
import FrontDoor.Proofs.Metrics.Series
import FrontDoor.Proofs.Metrics.Uses
import FrontDoor.Proofs.Number.Counts
import FrontDoor.Proofs.Number.Numerals
import FrontDoor.Proofs.Number.Rounding
import FrontDoor.Proofs.Recorder
import FrontDoor.Proofs.Recorders.Sums
import FrontDoor.Proofs.Route
import FrontDoor.Proofs.Service.Answers
import FrontDoor.Proofs.Service.Lifecycle
import FrontDoor.Proofs.Service.Run
import FrontDoor.Proofs.Settings.Misfits
import FrontDoor.Proofs.Settings.Precedence
import FrontDoor.Proofs.Settings.Wording
import FrontDoor.Proofs.Store.Document
import FrontDoor.Proofs.Store.Isolation
import FrontDoor.Proofs.Store.Membership
import FrontDoor.Proofs.Text.Front
import FrontDoor.Proofs.Text.Repair
import FrontDoor.Proofs.Text.Utf8
import FrontDoor.Proofs.Toml.Entries
import FrontDoor.Proofs.Toml.Pairs
import FrontDoor.Proofs.Toml.Strings
import FrontDoor.Recorder
import FrontDoor.Route
import FrontDoor.Service.Basic
import FrontDoor.Service.Error
import FrontDoor.Service.Host
import FrontDoor.Settings.Basic
import FrontDoor.Settings.Document
import FrontDoor.Store.Basic
import FrontDoor.Store.Memory
import FrontDoor.Store.Scripted
import FrontDoor.SystemError
import FrontDoor.Text.Digits
import FrontDoor.Text.Front
import FrontDoor.Text.Quoted
import FrontDoor.Text.Unprintable
import FrontDoor.Text.Utf8
import FrontDoor.Toml.Diagnostic
import FrontDoor.Toml.Document
import FrontDoor.Toml.Names
import FrontDoor.Toml.Scalar
import FrontDoor.Toml.Text
import FrontDoor.Toml.Value
