import Calculator.Main
import Calculator.Proofs.Binary64.Exact
import Calculator.Proofs.Binary64.Integers
import Calculator.Proofs.Binary64.Rounding
import Calculator.Proofs.Calculation.WellFormed
import Calculator.Proofs.Command.Coloring
import Calculator.Proofs.Command.Content
import Calculator.Proofs.Command.Interpreter
import Calculator.Proofs.Command.Isolation
import Calculator.Proofs.Command.Listing
import Calculator.Proofs.Command.Presentation
import Calculator.Proofs.Command.Scripts
import Calculator.Proofs.Command.Tracing
import Calculator.Proofs.CommandLine.Argument
import Calculator.Proofs.CommandLine.Front
import Calculator.Proofs.CommandLine.Further
import Calculator.Proofs.CommandLine.Given
import Calculator.Proofs.CommandLine.Globals
import Calculator.Proofs.CommandLine.Placement
import Calculator.Proofs.CommandLine.Precedence
import Calculator.Proofs.CommandLine.Spelling
import Calculator.Proofs.Configuration.Rereading
import Calculator.Proofs.Decimal.Digits
import Calculator.Proofs.Decimal.Layout
import Calculator.Proofs.Decimal.SameValue
import Calculator.Proofs.Decimal.Significant
import Calculator.Proofs.Expression.Alternation
import Calculator.Proofs.Expression.Answer
import Calculator.Proofs.Expression.Chain
import Calculator.Proofs.Expression.Complaint
import Calculator.Proofs.Expression.Divisors
import Calculator.Proofs.Expression.Integers
import Calculator.Proofs.Expression.Reduction
import Calculator.Proofs.Expression.Rendering
import Calculator.Proofs.Expression.Tree
import Calculator.Proofs.History.Export
import Calculator.Proofs.History.Window
import Calculator.Proofs.Json.Controls
import Calculator.Proofs.Json.Doubles
import Calculator.Proofs.Json.Numbers
import Calculator.Proofs.Json.Records
import Calculator.Proofs.Json.Strings
import Calculator.Proofs.Keypad.Script
import Calculator.Proofs.Keypad.Spelling
import Calculator.Proofs.Machine.Evaluation
import Calculator.Proofs.Numeral.Canonical
import Calculator.Proofs.Numeral.Faithful
import Calculator.Proofs.Numeral.Grammar
import Calculator.Proofs.Numeral.Integers
import Calculator.Proofs.Numeral.Redisplay
import Calculator.Proofs.Numeral.Rereading
import Calculator.Proofs.Numeral.Shape
import Calculator.Proofs.Numeral.Slices
import Calculator.Proofs.Session.Absorption
import Calculator.Proofs.Session.Alphabet
import Calculator.Proofs.Session.Continuation
import Calculator.Proofs.Session.Display
import Calculator.Proofs.Session.Independence
import Calculator.Proofs.Session.Integers
import Calculator.Proofs.Session.Invariant
import Calculator.Proofs.Session.Listing
import Calculator.Proofs.Session.Log
import Calculator.Proofs.Session.Redisplay
import Calculator.Proofs.Session.Repetition
import Calculator.Proofs.Session.Replay
import Calculator.Proofs.Session.Restart
import Calculator.Proofs.Session.Retry
import Calculator.Proofs.Session.Run
import Calculator.Proofs.Session.Script
import Calculator.Proofs.Session.Typing
import Calculator.Proofs.Session.Verdict
import Calculator.Proofs.Terminal.Escape
import Calculator.Proofs.Text.Deletion
import Calculator.Proofs.Text.Lines
