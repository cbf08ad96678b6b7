import PackHost.Binding
import PackHost.CommandLine.Arguments
import PackHost.CommandLine.Load
import PackHost.CommandLine.Run
import PackHost.CommandLine.Watch
import PackHost.Config.Decoding
import PackHost.Config.Directories
import PackHost.Config.Encoding
import PackHost.Config.File
import PackHost.Config.Settings
import PackHost.Console
import PackHost.Engine.Basic
import PackHost.Engine.Command
import PackHost.Engine.Limits
import PackHost.Event.Bus
import PackHost.Event.Reaction
import PackHost.Failure
import PackHost.Files.Path
import PackHost.Files.Tree
import PackHost.Files.Watch
import PackHost.Language.Basic
import PackHost.Language.Context
import PackHost.Language.Session
import PackHost.Log.Filter
import PackHost.Main
import PackHost.Manager.Basic
import PackHost.Manager.Discover
import PackHost.Manager.Load
import PackHost.Manager.Plan
import PackHost.Number.Decimal
import PackHost.Pack.Basic
import PackHost.Pack.Header
import PackHost.Pack.ScriptFile
import PackHost.Pack.Settings
import PackHost.Pack.Unit
import PackHost.Proofs.CommandLine.Batch
import PackHost.Proofs.CommandLine.Load
import PackHost.Proofs.CommandLine.Outcome
import PackHost.Proofs.CommandLine.Roots
import PackHost.Proofs.CommandLine.Watch
import PackHost.Proofs.Event.Bus
import PackHost.Proofs.Event.Log
import PackHost.Proofs.Files.Growth
import PackHost.Proofs.Files.Inside
import PackHost.Proofs.Files.Location
import PackHost.Proofs.Files.Lookup
import PackHost.Proofs.Files.Make
import PackHost.Proofs.Files.Order
import PackHost.Proofs.Files.Put
import PackHost.Proofs.Files.Silence
import PackHost.Proofs.Files.Times
import PackHost.Proofs.Files.Walk
import PackHost.Proofs.Files.Watch
import PackHost.Proofs.Files.Write
import PackHost.Proofs.Language.Course
import PackHost.Proofs.Language.Crossing
import PackHost.Proofs.Language.Decoding
import PackHost.Proofs.Language.FailureClass
import PackHost.Proofs.Language.Fresh
import PackHost.Proofs.Language.History
import PackHost.Proofs.Language.Law
import PackHost.Proofs.Language.Restricted
import PackHost.Proofs.Manager.Account
import PackHost.Proofs.Manager.Arrival
import PackHost.Proofs.Manager.Attribution
import PackHost.Proofs.Manager.Bare
import PackHost.Proofs.Manager.Chronicle
import PackHost.Proofs.Manager.Deed
import PackHost.Proofs.Manager.Discovery
import PackHost.Proofs.Manager.Exact
import PackHost.Proofs.Manager.Findings
import PackHost.Proofs.Manager.Generation
import PackHost.Proofs.Manager.HostCall
import PackHost.Proofs.Manager.Isolation
import PackHost.Proofs.Manager.Namespace
import PackHost.Proofs.Manager.Opening
import PackHost.Proofs.Manager.PackTable
import PackHost.Proofs.Manager.Rediscovery
import PackHost.Proofs.Manager.Reload
import PackHost.Proofs.Manager.Repeat
import PackHost.Proofs.Manager.Seed
import PackHost.Proofs.Manager.Sowing
import PackHost.Proofs.Manager.Tale
import PackHost.Proofs.Manager.Tended
import PackHost.Proofs.Manager.Trace
import PackHost.Proofs.Manager.View
import PackHost.Proofs.Manager.Watched
import PackHost.Proofs.Pack.Directive
import PackHost.Proofs.Pack.Header
import PackHost.Proofs.Pack.Heading
import PackHost.Proofs.Pack.Lifecycle
import PackHost.Proofs.Pack.Location
import PackHost.Proofs.Pack.Order
import PackHost.Proofs.Pack.Sorting
import PackHost.Proofs.Script.Called
import PackHost.Proofs.Script.Computing
import PackHost.Proofs.Script.Grammar
import PackHost.Proofs.Script.Laws
import PackHost.Proofs.Script.Mishap
import PackHost.Proofs.Script.Propagation
import PackHost.Proofs.Script.Reply
import PackHost.Proofs.Script.Word
import PackHost.Proofs.Source.Arrow
import PackHost.Proofs.Source.Composition
import PackHost.Proofs.Source.Control
import PackHost.Proofs.Source.Denotation
import PackHost.Proofs.Source.Draft
import PackHost.Proofs.Source.Front
import PackHost.Proofs.Source.Grammar
import PackHost.Proofs.Source.Image
import PackHost.Proofs.Source.Line
import PackHost.Proofs.Source.Mark
import PackHost.Proofs.Source.Nesting
import PackHost.Proofs.Source.Offence
import PackHost.Proofs.Source.Offset
import PackHost.Proofs.Source.Progress
import PackHost.Proofs.Source.Reading
import PackHost.Proofs.Source.Rendering
import PackHost.Proofs.Source.Rules
import PackHost.Proofs.Source.Settled
import PackHost.Proofs.Source.Step
import PackHost.Proofs.Source.Switch
import PackHost.Proofs.Source.Tidy
import PackHost.Proofs.Source.Weave
import PackHost.Proofs.Source.Within
import PackHost.Proofs.Table
import PackHost.Proofs.Text.Bytes
import PackHost.Proofs.Text.Cut
import PackHost.Proofs.Twin.Apart
import PackHost.Proofs.Twin.Blend
import PackHost.Proofs.Twin.Call
import PackHost.Proofs.Twin.Command
import PackHost.Proofs.Twin.Host
import PackHost.Proofs.Twin.Journal
import PackHost.Proofs.Twin.Link
import PackHost.Proofs.Twin.Load
import PackHost.Proofs.Twin.Pack
import PackHost.Proofs.Twin.Program
import PackHost.Proofs.Twin.Table
import PackHost.Proofs.Twin.View
import PackHost.Proofs.Twin.World
import PackHost.Proofs.World.Act
import PackHost.Proofs.World.Console
import PackHost.Proofs.World.Desk
import PackHost.Proofs.World.Dispatch
import PackHost.Proofs.World.Ends
import PackHost.Proofs.World.Journal
import PackHost.Proofs.World.Offer
import PackHost.Proofs.World.Register
import PackHost.Proofs.World.Roll
import PackHost.Proofs.World.Writings
import PackHost.Restriction
import PackHost.Script.Arithmetic
import PackHost.Script.Builtin
import PackHost.Script.Call
import PackHost.Script.Datum
import PackHost.Script.Engine
import PackHost.Script.Eval
import PackHost.Script.Evaluator
import PackHost.Script.Fault
import PackHost.Script.Idle
import PackHost.Script.Lexer
import PackHost.Script.Parser
import PackHost.Script.Parser.Basic
import PackHost.Script.Parser.Operator
import PackHost.Script.Path
import PackHost.Script.Run
import PackHost.Script.Scope
import PackHost.Script.Token
import PackHost.Script.Tree
import PackHost.ScriptKind
import PackHost.Source.Downlevel
import PackHost.Source.Fault
import PackHost.Source.Lexeme
import PackHost.Source.Position
import PackHost.Source.Preprocessor
import PackHost.Table
import PackHost.Text.Alphabet
import PackHost.Text.Case
import PackHost.Text.Outline
import PackHost.Text.Quoted
import PackHost.Text.Reader
import PackHost.Toml.Draft
import PackHost.Toml.Printer
import PackHost.Toml.Reader
import PackHost.Toml.Value
import PackHost.Value
import PackHost.Workbench
import PackHost.World.Basic
import PackHost.World.Call
import PackHost.World.Ledger
import PackHost.World.Load
import PackHost.World.Program
