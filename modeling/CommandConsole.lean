import CommandConsole.Bindings
import CommandConsole.Bindings.Bind
import CommandConsole.Bindings.Holdings
import CommandConsole.Bindings.Pool
import CommandConsole.Catalogue
import CommandConsole.Cli.Commands
import CommandConsole.Cli.Directory
import CommandConsole.Cli.FieldPattern
import CommandConsole.Cli.Input
import CommandConsole.Cli.LogFilter
import CommandConsole.Cli.Logging
import CommandConsole.Cli.Options
import CommandConsole.Cli.Program
import CommandConsole.Command
import CommandConsole.Config
import CommandConsole.Console
import CommandConsole.Console.Session
import CommandConsole.Constraint
import CommandConsole.Duration
import CommandConsole.Engine
import CommandConsole.Engine.Desk
import CommandConsole.Error
import CommandConsole.Event
import CommandConsole.Invocation
import CommandConsole.Invoker
import CommandConsole.Line.Balance
import CommandConsole.Line.Words
import CommandConsole.Main
import CommandConsole.Number.Binary64
import CommandConsole.Number.Binary64.Text
import CommandConsole.Number.Decimal
import CommandConsole.Playbook
import CommandConsole.Playbook.Phrase
import CommandConsole.Proofs.Answering
import CommandConsole.Proofs.Bindings.Storage
import CommandConsole.Proofs.Engine.Life
import CommandConsole.Proofs.Engine.Lines
import CommandConsole.Proofs.Engine.Ticks
import CommandConsole.Proofs.Running
import CommandConsole.Proofs.Signature.Choice
import CommandConsole.Refusal
import CommandConsole.Response
import CommandConsole.Runner
import CommandConsole.Schedule
import CommandConsole.Script
import CommandConsole.Signature
import CommandConsole.Signature.Choice
import CommandConsole.Signature.Parameter
import CommandConsole.Table
import CommandConsole.Text.Ascii
import CommandConsole.Text.Blank
import CommandConsole.Text.Bytes
import CommandConsole.Text.CaseTable
import CommandConsole.Text.Grapheme
import CommandConsole.Text.GraphemeTable
import CommandConsole.Text.HiddenTable
import CommandConsole.Text.Letter
import CommandConsole.Text.LetterTable
import CommandConsole.Text.Lowercase
import CommandConsole.Text.Quoted
import CommandConsole.Text.Record
import CommandConsole.Token
import CommandConsole.Token.Scan
import CommandConsole.Token.ScanError
import CommandConsole.Value
import CommandConsole.Value.Equality
import CommandConsole.Value.Text
import CommandConsole.ValueParser
import CommandConsole.ValueParser.Builtin
import CommandConsole.ValueParser.Custom
import CommandConsole.ValueParser.Registry
import CommandConsole.ValueType
import CommandConsole.Proofs.Engine.Completion
import CommandConsole.Proofs.Engine.Conversation
import CommandConsole.Proofs.Text.Blank
import CommandConsole.Proofs.Token.Grammar
import CommandConsole.Proofs.Token.Scan
import CommandConsole.Proofs.Bindings.Binding
import CommandConsole.Proofs.Bindings.Bind
import CommandConsole.Proofs.Line.Delimiters
import CommandConsole.Proofs.Line.Trouble
import CommandConsole.Proofs.Token.Position
import CommandConsole.Proofs.Bindings.Remainder
import CommandConsole.Proofs.Runner.Life
import CommandConsole.Proofs.Catalogue
import CommandConsole.Proofs.Engine.Pools
import CommandConsole.Proofs.Engine.Course
import CommandConsole.Proofs.Attempts
import CommandConsole.Proofs.Runner.Verdict
import CommandConsole.Proofs.Engine.Verdict
import CommandConsole.Proofs.Engine.Storage
import CommandConsole.Proofs.Engine.Isolation
import CommandConsole.Proofs.Reports
import CommandConsole.Proofs.Engine.Happenings
import CommandConsole.Proofs.Engine.Seniority
import CommandConsole.Proofs.Engine.Delay
import CommandConsole.Proofs.Catalogue.Names
import CommandConsole.Proofs.Value.Maps
import CommandConsole.Proofs.Value.Typing
import CommandConsole.Proofs.ValueParser.Yields
import CommandConsole.Proofs.Bindings.Typed
import CommandConsole.Proofs.Number.Decimal
import CommandConsole.Proofs.Value.Sayable
import CommandConsole.Proofs.Value.Notation
import CommandConsole.Proofs.Line.Solid
import CommandConsole.Proofs.Value.Written
import CommandConsole.Proofs.Bindings.RoundTrip
import CommandConsole.Proofs.Bindings.Checks
import CommandConsole.Proofs.Engine.Sights
import CommandConsole.Proofs.Engine.Pooling
import CommandConsole.Proofs.Bindings.Supplied
import CommandConsole.Proofs.Value.Variants
import CommandConsole.Proofs.Bindings.Variants
import CommandConsole.Proofs.Engine.Begun
import CommandConsole.Proofs.Engine.Rejection
import CommandConsole.Proofs.Engine.Alone
import CommandConsole.Proofs.Runner.Stepping
import CommandConsole.Proofs.Engine.Stepping
import CommandConsole.Proofs.Engine.Waiting
import CommandConsole.Proofs.Engine.Origin
import CommandConsole.Proofs.Engine.Transcript
import CommandConsole.Proofs.Text.Lowercase
import CommandConsole.Proofs.Token.Display
import CommandConsole.Proofs.Token.Substitution
import CommandConsole.Proofs.ValueParser.Quoting
import CommandConsole.Proofs.Line.Beginnings
import CommandConsole.Proofs.Bindings.Blame
import CommandConsole.Proofs.Catalogue.Spelling
import CommandConsole.Proofs.Engine.Keys
import CommandConsole.Proofs.Line.Cover
import CommandConsole.Proofs.Line.Nested
import CommandConsole.Proofs.Line.Places
import CommandConsole.Proofs.Bindings.Places
import CommandConsole.Proofs.Console.Acts
import CommandConsole.Proofs.Line.Balance
import CommandConsole.Proofs.Console.Reading
import CommandConsole.Proofs.Line.Joined
import CommandConsole.Proofs.Line.Completion
import CommandConsole.Proofs.Line.Unclosed
import CommandConsole.Proofs.Signature.Drafts
import CommandConsole.Proofs.Signature.Build
import CommandConsole.Proofs.Number.Nearest
import CommandConsole.Proofs.Value.Widening
import CommandConsole.Proofs.Signature.Preference
import CommandConsole.Proofs.ValueParser.Resolution
import CommandConsole.Proofs.Value.Alike
import CommandConsole.Proofs.Value.Equality
import CommandConsole.Proofs.Value.Hashing
import CommandConsole.Proofs.ValueParser.Collections
import CommandConsole.Proofs.Engine.Flight
import CommandConsole.Proofs.Console.Handling
import CommandConsole.Proofs.Console.Service
import CommandConsole.Proofs.Cli.Program
import CommandConsole.Proofs.Engine.Commands
import CommandConsole.Proofs.Engine.Registration
import CommandConsole.Proofs.Engine.Desk
