import Pushdown.Automaton.Basic
import Pushdown.Automaton.Trace
import Pushdown.Compiler
import Pushdown.Emitter.Basic
import Pushdown.Emitter.SymbolTable
import Pushdown.Grammar.Basic
import Pushdown.Grammar.Expressions
import Pushdown.Grammar.Printer
import Pushdown.Grammar.Programs
import Pushdown.Grammar.Reader
import Pushdown.Machine.Arithmetic
import Pushdown.Machine.Basic
import Pushdown.Machine.Cell
import Pushdown.Machine.Channel
import Pushdown.Machine.Memory
import Pushdown.Machine.Opcode
import Pushdown.Machine.Program
import Pushdown.Machine.Trace
import Pushdown.Main
import Pushdown.Numeral.Integer
import Pushdown.Numeral.Real
import Pushdown.Numeral.Shortest
import Pushdown.Proofs.Acceptance
import Pushdown.Proofs.Agreement
import Pushdown.Proofs.Allocation
import Pushdown.Proofs.Budget
import Pushdown.Proofs.Commands
import Pushdown.Proofs.Compilation
import Pushdown.Proofs.ControlFlow
import Pushdown.Proofs.Derivation
import Pushdown.Proofs.Duties
import Pushdown.Proofs.Effects
import Pushdown.Proofs.Emission
import Pushdown.Proofs.Execution
import Pushdown.Proofs.Expressions
import Pushdown.Proofs.Halting
import Pushdown.Proofs.Languages
import Pushdown.Proofs.Layout
import Pushdown.Proofs.Lexemes
import Pushdown.Proofs.Likeness
import Pushdown.Proofs.LineSources
import Pushdown.Proofs.Location
import Pushdown.Proofs.Memory
import Pushdown.Proofs.Numerals
import Pushdown.Proofs.ParseStack
import Pushdown.Proofs.Phrases
import Pushdown.Proofs.Placement
import Pushdown.Proofs.Prediction
import Pushdown.Proofs.ProgramFiles
import Pushdown.Proofs.Readiness
import Pushdown.Proofs.Reading
import Pushdown.Proofs.Renaming
import Pushdown.Proofs.Runs
import Pushdown.Proofs.SavedCells
import Pushdown.Proofs.SavedMemory
import Pushdown.Proofs.SavedPrograms
import Pushdown.Proofs.Scanning
import Pushdown.Proofs.Shape
import Pushdown.Proofs.StackSafety
import Pushdown.Proofs.StackUse
import Pushdown.Proofs.Stores
import Pushdown.Proofs.Streams
import Pushdown.Proofs.Syntax
import Pushdown.Proofs.Termination
import Pushdown.Proofs.TokenListings
import Pushdown.Proofs.Translation
import Pushdown.Proofs.Trees
import Pushdown.Proofs.Walk
import Pushdown.Proofs.Words
import Pushdown.ReadError
import Pushdown.Session.Basic
import Pushdown.Session.Command
import Pushdown.Session.Failure
import Pushdown.Session.Host
import Pushdown.Session.Options
import Pushdown.Session.Place
import Pushdown.Session.Prompt
import Pushdown.Session.Task
import Pushdown.Session.Workplace
import Pushdown.Stack
import Pushdown.Text.Alphanumeric
import Pushdown.Text.Blank
import Pushdown.Text.Column
import Pushdown.Text.Quoted
import Pushdown.Text.Range
import Pushdown.Text.Stream
import Pushdown.Text.Unprintable
import Pushdown.Token.Basic
import Pushdown.Token.Listing
import Pushdown.Token.Scan
import Pushdown.Tree.Basic
import Pushdown.Tree.Phrase
import Pushdown.Tree.Table
import Pushdown.Value
import Pushdown.Proofs.Requests
import Pushdown.Proofs.Capacity
import Pushdown.Proofs.Faults
import Pushdown.Proofs.GrammarLines
import Pushdown.Proofs.GrammarText
import Pushdown.Proofs.IntegerArithmetic
import Pushdown.Proofs.Relations
import Pushdown.Proofs.Arena
import Pushdown.Proofs.Traversals
import Pushdown.Proofs.Guarded
import Pushdown.Proofs.Ranges
