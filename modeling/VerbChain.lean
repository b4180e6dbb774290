import VerbChain.Action
import VerbChain.Bag
import VerbChain.Cancellation
import VerbChain.Chain.Basic
import VerbChain.Chain.Payload
import VerbChain.Chain.Reading
import VerbChain.Chain.Stored
import VerbChain.Chain.Value
import VerbChain.Command.Report
import VerbChain.Command.Request
import VerbChain.Command.Workspace
import VerbChain.Context
import VerbChain.Engine
import VerbChain.Error
import VerbChain.Evaluation.Handler
import VerbChain.Evaluation.Walk
import VerbChain.Files.Access
import VerbChain.Files.Path
import VerbChain.Files.Tree
import VerbChain.Functional
import VerbChain.Grammar.Cleaning
import VerbChain.Grammar.Standard
import VerbChain.Grammar.Tool
import VerbChain.Json.Basic
import VerbChain.Json.Document
import VerbChain.Json.Reading
import VerbChain.Json.Record
import VerbChain.Json.Token
import VerbChain.Json.Writing
import VerbChain.Language.Arithmetic
import VerbChain.Language.Music
import VerbChain.Language.Scripted
import VerbChain.Language.Tasks
import VerbChain.Main
import VerbChain.Number.Binary64
import VerbChain.Number.Decimal
import VerbChain.Number.Layout
import VerbChain.Number.Numeral
import VerbChain.Number.Shortest
import VerbChain.Plan.Execution
import VerbChain.Plan.Printing
import VerbChain.Plan.Rehearsal
import VerbChain.Plan.Storage
import VerbChain.Settings.Basic
import VerbChain.Settings.Loading
import VerbChain.Source.Lexeme
import VerbChain.Source.ParseError
import VerbChain.Source.Token
import VerbChain.Source.Tokens
import VerbChain.Stream.Channel
import VerbChain.Stream.Outlet
import VerbChain.Table
import VerbChain.Text.Blank
import VerbChain.Text.Diagnostic
import VerbChain.Text.Lines
import VerbChain.Text.Position
import VerbChain.Text.Visibility
import VerbChain.Yaml.Character
import VerbChain.Yaml.Layout
import VerbChain.Yaml.Node
import VerbChain.Yaml.Quoting
import VerbChain.Yaml.Record
import VerbChain.Yaml.Resolution
import VerbChain.Yaml.Scalar
import VerbChain.Yaml.Source
import VerbChain.Yaml.Tag
import VerbChain.Yaml.Token
import VerbChain.Yaml.Writing
import VerbChain.Chain.Tokens
import VerbChain.Proofs.Chain.Reading
import VerbChain.Proofs.Number.ReadBack
import VerbChain.Chain.Cursor
import VerbChain.Proofs.Chain.Cursor
import VerbChain.Proofs.Chain.RoundTrip
import VerbChain.Proofs.Evaluation.Account
import VerbChain.Proofs.Stream.Interleaving
import VerbChain.Proofs.Stream.Publication
import VerbChain.Proofs.Source.LexicalGrammar
import VerbChain.Proofs.Source.LongestMatch
import VerbChain.Proofs.Number.Overflow
import VerbChain.Proofs.Source.Literals
import VerbChain.Proofs.Chain.Stability
import VerbChain.Proofs.Source.Places
import VerbChain.Proofs.Source.Layout
import VerbChain.Proofs.Grammar.Notation
import VerbChain.Proofs.Grammar.Derivation
import VerbChain.Proofs.Grammar.Terminals
import VerbChain.Proofs.Grammar.Settling
import VerbChain.Proofs.Grammar.Spreading
import VerbChain.Proofs.Grammar.Acceptance
import VerbChain.Proofs.Plan.Account
import VerbChain.Proofs.Plan.WholeRun
import VerbChain.Proofs.Evaluation.Threading
import VerbChain.Proofs.Evaluation.Concatenation
import VerbChain.Proofs.Plan.Composition
import VerbChain.Proofs.Bag.Keys
import VerbChain.Stream.Exchange
import VerbChain.Proofs.Stream.Delivery
import VerbChain.Proofs.Json.Literals
import VerbChain.Proofs.Json.Tokens
import VerbChain.Proofs.Json.ReadBack
import VerbChain.Proofs.Plan.Persistence
import VerbChain.Proofs.Chain.Refusals
import VerbChain.Proofs.Chain.Storage
import VerbChain.Proofs.Language.Outcomes
import VerbChain.Proofs.Command.Agreement
import VerbChain.Proofs.Yaml.ReadBack
import VerbChain.Proofs.Plan.Notations
import VerbChain.Proofs.Command.StoredRun
import VerbChain.Proofs.Bag.Positionals
import VerbChain.Proofs.Functional.Layout
import VerbChain.Proofs.Functional.Conventions
import VerbChain.Proofs.Number.Payload
import VerbChain.Proofs.Language.Tracks
import VerbChain.Proofs.Language.Clips
import VerbChain.Proofs.Json.OneLine
import VerbChain.Proofs.Json.Losses
import VerbChain.Proofs.Number.Exactness
import VerbChain.Proofs.Json.ShortNumbers
import VerbChain.Proofs.Plan.PrintedLog
import VerbChain.Proofs.Text.Lines
import VerbChain.Proofs.Grammar.Cleaning
import VerbChain.Proofs.Number.ExactPayload
import VerbChain.Proofs.Plan.PrintedLines
import VerbChain.Stream.Script
import VerbChain.Stream.Session
import VerbChain.Proofs.Stream.Scripts
import VerbChain.Proofs.Stream.Paths
import VerbChain.Proofs.Stream.Departure
import VerbChain.Proofs.Bag.Scan
import VerbChain.Proofs.Evaluation.Registration
import VerbChain.Proofs.Functional.Positionals
import VerbChain.Proofs.Language.Entries
import VerbChain.Proofs.Language.TaskLog
