import Pseudocode.Action
import Pseudocode.Builtin
import Pseudocode.Calendar
import Pseudocode.Channel
import Pseudocode.Cli.Command
import Pseudocode.Cli.Execute
import Pseudocode.Cli.Help
import Pseudocode.Cli.Log
import Pseudocode.Cli.Request
import Pseudocode.Cli.Session
import Pseudocode.Diagnostic.Basic
import Pseudocode.Diagnostic.Display
import Pseudocode.Duration
import Pseudocode.Environment
import Pseudocode.Files
import Pseudocode.Llvm.Lower
import Pseudocode.Llvm.Module
import Pseudocode.Llvm.Printer
import Pseudocode.Location
import Pseudocode.Main
import Pseudocode.Number.Binary
import Pseudocode.Number.Integer
import Pseudocode.Number.Numeral
import Pseudocode.Number.Shortest
import Pseudocode.Number.Word
import Pseudocode.Path
import Pseudocode.Program.Basic
import Pseudocode.Program.Compile
import Pseudocode.Program.Dump
import Pseudocode.Program.Parser
import Pseudocode.Proofs.Builtin.Substring
import Pseudocode.Proofs.Channel.Agreement
import Pseudocode.Proofs.Cli.Console
import Pseudocode.Proofs.Diagnostic.Excerpt
import Pseudocode.Proofs.Diagnostic.Origin
import Pseudocode.Proofs.Llvm.Acceptance
import Pseudocode.Proofs.Llvm.Assembly
import Pseudocode.Proofs.Llvm.Correctness
import Pseudocode.Proofs.Llvm.Counters
import Pseudocode.Proofs.Llvm.Draft
import Pseudocode.Proofs.Llvm.Expressions
import Pseudocode.Proofs.Llvm.Follows
import Pseudocode.Proofs.Llvm.Machine
import Pseudocode.Proofs.Llvm.Names
import Pseudocode.Proofs.Llvm.Numeric
import Pseudocode.Proofs.Llvm.Origin
import Pseudocode.Proofs.Llvm.Places
import Pseudocode.Proofs.Llvm.Rounds
import Pseudocode.Proofs.Llvm.Simulation
import Pseudocode.Proofs.Llvm.Statements
import Pseudocode.Proofs.Llvm.Subset
import Pseudocode.Proofs.Llvm.Supply
import Pseudocode.Proofs.Llvm.WellFormed
import Pseudocode.Proofs.Number.Compare
import Pseudocode.Proofs.Number.Decimal
import Pseudocode.Proofs.Number.Literal
import Pseudocode.Proofs.Number.Overflow
import Pseudocode.Proofs.Number.Packing
import Pseudocode.Proofs.Number.Reading
import Pseudocode.Proofs.Number.Rounding
import Pseudocode.Proofs.Number.Sum
import Pseudocode.Proofs.Number.Value
import Pseudocode.Proofs.Outcome
import Pseudocode.Proofs.Program.Completeness
import Pseudocode.Proofs.Program.Completion
import Pseudocode.Proofs.Program.Fitness
import Pseudocode.Proofs.Program.Grammar
import Pseudocode.Proofs.Program.Layout
import Pseudocode.Proofs.Program.Mentions
import Pseudocode.Proofs.Program.Origin
import Pseudocode.Proofs.Program.Parts
import Pseudocode.Proofs.Program.Places
import Pseudocode.Proofs.Program.Recognition
import Pseudocode.Proofs.Program.Refusal
import Pseudocode.Proofs.Program.ReservedWords
import Pseudocode.Proofs.Program.Soundness
import Pseudocode.Proofs.Program.Stale
import Pseudocode.Proofs.Program.Steps
import Pseudocode.Proofs.Program.Tree
import Pseudocode.Proofs.Run.Arrays
import Pseudocode.Proofs.Run.Bindings
import Pseudocode.Proofs.Run.Budget
import Pseudocode.Proofs.Run.Cancellation
import Pseudocode.Proofs.Run.Congruence
import Pseudocode.Proofs.Run.Counting
import Pseudocode.Proofs.Run.Dimensions
import Pseudocode.Proofs.Run.Effects
import Pseudocode.Proofs.Run.Elements
import Pseudocode.Proofs.Run.Failing
import Pseudocode.Proofs.Run.Framing
import Pseudocode.Proofs.Run.Heeding
import Pseudocode.Proofs.Run.Input
import Pseudocode.Proofs.Run.Names
import Pseudocode.Proofs.Run.Nesting
import Pseudocode.Proofs.Run.Origin
import Pseudocode.Proofs.Run.Places
import Pseudocode.Proofs.Run.Raising
import Pseudocode.Proofs.Run.Script
import Pseudocode.Proofs.Run.Sequence
import Pseudocode.Proofs.Run.Sync
import Pseudocode.Proofs.Run.Trace
import Pseudocode.Proofs.Run.Turns
import Pseudocode.Proofs.Run.Walk
import Pseudocode.Proofs.Settings.Agreement
import Pseudocode.Proofs.Settings.Decoding
import Pseudocode.Proofs.Settings.Entries
import Pseudocode.Proofs.Settings.Expansion
import Pseudocode.Proofs.Text.Ascii
import Pseudocode.Proofs.Text.Casing
import Pseudocode.Proofs.Text.CharSet
import Pseudocode.Proofs.Text.Characters
import Pseudocode.Proofs.Text.Lines
import Pseudocode.Proofs.Text.Utf8
import Pseudocode.Proofs.Token.Breaks
import Pseudocode.Proofs.Token.Lines
import Pseudocode.Proofs.Token.Places
import Pseudocode.Proofs.Token.Rendering
import Pseudocode.Proofs.Token.Tiling
import Pseudocode.Proofs.Value.Nesting
import Pseudocode.Proofs.Value.Printing
import Pseudocode.Proofs.Value.Typed
import Pseudocode.Random
import Pseudocode.Run.Eval
import Pseudocode.Run.Exec
import Pseudocode.Run.Fault
import Pseudocode.Settings.Basic
import Pseudocode.Settings.Decoder
import Pseudocode.Settings.Load
import Pseudocode.Settings.Setting
import Pseudocode.Store
import Pseudocode.Text.Basic
import Pseudocode.Text.Blank
import Pseudocode.Text.Case
import Pseudocode.Text.Cells
import Pseudocode.Text.CharSet
import Pseudocode.Text.Letter
import Pseudocode.Text.Printable
import Pseudocode.Text.Quoted
import Pseudocode.Text.Radix
import Pseudocode.Text.Utf8
import Pseudocode.Token.Basic
import Pseudocode.Token.Keyword
import Pseudocode.Token.Scanner
import Pseudocode.Toml.Document
import Pseudocode.Toml.Draft
import Pseudocode.Toml.Reader
import Pseudocode.Toml.Syntax
import Pseudocode.Value.Basic
import Pseudocode.Value.Input
import Pseudocode.Yaml.Node
import Pseudocode.Yaml.Plain
import Pseudocode.Yaml.Printer
import Pseudocode.Yaml.Scalar
import Pseudocode.Yaml.Timestamp
