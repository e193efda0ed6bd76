import HostScript.Code
import HostScript.Code.Compile
import HostScript.Code.Scope
import HostScript.Command
import HostScript.Dispatch.Choice
import HostScript.Dispatch.Perform
import HostScript.Dispatch.Rule
import HostScript.Dispatch.Signature
import HostScript.EvalError
import HostScript.Execute
import HostScript.Files
import HostScript.Files.Path
import HostScript.Heap
import HostScript.Host.Param
import HostScript.Host.Surface
import HostScript.Host.Type
import HostScript.Library
import HostScript.Library.Arguments
import HostScript.Library.Lists
import HostScript.Library.Numbers
import HostScript.Library.Texts
import HostScript.Machine
import HostScript.Main
import HostScript.Namespace
import HostScript.Namespace.Table
import HostScript.Numeral.Binary64
import HostScript.Numeral.Fraction
import HostScript.Numeral.Integer
import HostScript.Numeral.Shortest
import HostScript.Proofs.Dispatch.Alike
import HostScript.Proofs.Dispatch.Callbacks
import HostScript.Proofs.Dispatch.Faithful
import HostScript.Proofs.Dispatch.Handover
import HostScript.Proofs.Dispatch.HeapOnly
import HostScript.Proofs.Dispatch.HostCalls
import HostScript.Proofs.Dispatch.Range
import HostScript.Proofs.Dispatch.Shapes
import HostScript.Proofs.Dispatch.Throughout
import HostScript.Proofs.Dispatch.Transparency
import HostScript.Report
import HostScript.ScriptError
import HostScript.Session
import HostScript.Source.LineIndex
import HostScript.Source.Span
import HostScript.Store
import HostScript.Syntax
import HostScript.Syntax.Outline
import HostScript.Syntax.Parser
import HostScript.Text.Blank
import HostScript.Text.Bytes
import HostScript.Text.Case
import HostScript.Text.Letter
import HostScript.Text.Parts
import HostScript.Text.Quoted
import HostScript.Text.Ranges
import HostScript.Text.Search
import HostScript.Text.Visible
import HostScript.Token
import HostScript.Token.Cursor
import HostScript.Token.Lexer
import HostScript.Value
import HostScript.Value.Arithmetic
import HostScript.Proofs.Compile.Scopes
import HostScript.Proofs.Compile.Steps
import HostScript.Proofs.Compile.Fits
import HostScript.Proofs.Compile.Program
import HostScript.Proofs.Compile.Placement
import HostScript.Proofs.Compile.Accepts
import HostScript.Proofs.Compile.Names
import HostScript.Proofs.Compile.Operations
import HostScript.Proofs.Compile.Mirror
import HostScript.Proofs.Machine.Frames
import HostScript.Proofs.Machine.Stack
import HostScript.Proofs.Machine.Sound
import HostScript.Proofs.Machine.Addressing
import HostScript.Proofs.Machine.Jumps
import HostScript.Proofs.Machine.Untouched
import HostScript.Proofs.Machine.Leads
import HostScript.Proofs.Machine.Course
import HostScript.Proofs.Machine.Launch
import HostScript.Proofs.Machine.Reads
import HostScript.Proofs.Machine.Above
import HostScript.Proofs.Import.Hidden
import HostScript.Proofs.Import.Discreet
import HostScript.Proofs.Import.Runtimes
import HostScript.Proofs.Import.Loads
import HostScript.Proofs.Import.Bounded
import HostScript.Proofs.Import.Rollback
import HostScript.Proofs.Syntax.Printer
import HostScript.Proofs.Syntax.Lexing
import HostScript.Proofs.Syntax.Levels
import HostScript.Proofs.Syntax.RoundTrip
import HostScript.Proofs.Heap.Maps
import HostScript.Proofs.Compile.Requests
import HostScript.Proofs.Compile.Renumber
import HostScript.Proofs.Dispatch.Growth
import HostScript.Proofs.Dispatch.Ledger
import HostScript.Proofs.Machine.Entries
import HostScript.Proofs.Machine.Demands
import HostScript.Proofs.Dispatch.Caches
import HostScript.Proofs.Source.Spots
import HostScript.Proofs.Source.Stands
import HostScript.Proofs.Syntax.Located
import HostScript.Proofs.Machine.Failures
import HostScript.Proofs.Source.Reports
import HostScript.Proofs.Source.Tiling
import HostScript.Proofs.Syntax.Beside
import HostScript.Proofs.Syntax.Layout
import HostScript.Proofs.Heap.Paths
import HostScript.Proofs.Host.Published
import HostScript.Proofs.Estate.Fences
import HostScript.Proofs.Estate.Library
import HostScript.Proofs.Estate.Actions
import HostScript.Proofs.Estate.Stores
import HostScript.Proofs.Estate.Steps
import HostScript.Proofs.Estate.Offers
import HostScript.Proofs.Estate.Apart
import HostScript.Proofs.Estate.Built
import HostScript.Proofs.Estate.Instances
import HostScript.Proofs.Machine.Homes
import HostScript.Proofs.Machine.OneRuntime
import HostScript.Proofs.Estate.Runtimes
import HostScript.Proofs.Source.Blame
import HostScript.Proofs.Source.Positions
import HostScript.Proofs.Dispatch.Offered
import HostScript.Proofs.Dispatch.Overloads
import HostScript.Proofs.Dispatch.BareCalls
import HostScript.Proofs.Compile.Strands
import HostScript.Proofs.Machine.Shadowing
import HostScript.Proofs.Syntax.Grammar
import HostScript.Proofs.Syntax.Composition
import HostScript.Proofs.Syntax.Nesting
import HostScript.Proofs.Syntax.Conditionals
import HostScript.Proofs.Compile.Parts
import HostScript.Proofs.Compile.Derivations
import HostScript.Proofs.Compile.Bare
import HostScript.Proofs.Compile.Returns
import HostScript.Proofs.Machine.Marks
import HostScript.Proofs.Machine.MemberCalls
import HostScript.Proofs.Machine.Unplaced
import HostScript.Proofs.Machine.Provenance
import HostScript.Proofs.Machine.Exits
import HostScript.Proofs.Machine.Results
import HostScript.Proofs.Machine.Outcomes
import HostScript.Proofs.Machine.Aliases
import HostScript.Proofs.Compile.Closings
import HostScript.Proofs.Machine.Terminators
import HostScript.Proofs.Compile.Folding
import HostScript.Proofs.Syntax.Consumption
import HostScript.Proofs.Syntax.Relexing
import HostScript.Proofs.Dispatch.Comparisons
import HostScript.Proofs.Dispatch.Answers
import HostScript.Proofs.Dispatch.Integers
import HostScript.Proofs.Host.Subtypes
import HostScript.Proofs.Library.Conversions
import HostScript.Proofs.Library.Texts
import HostScript.Proofs.Syntax.Unmeasured
import HostScript.Proofs.Syntax.Termination
import HostScript.Proofs.Source.Offsets
import HostScript.Proofs.Syntax.Numbers
import HostScript.Proofs.Library.Indexes
