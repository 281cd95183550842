import RequestCondition.Evaluator.Basic
import RequestCondition.Function.Builtin
import RequestCondition.Unicode.Script
import RequestCondition.Regex.Reader
import RequestCondition.Double.Basic
import RequestCondition.Double.Shortest
import RequestCondition.Json.Basic
import RequestCondition.Json.Numeral
import RequestCondition.Json.Printer
import RequestCondition.Json.Reader
import RequestCondition.Check
import RequestCondition.CommandLine.Arguments
import RequestCondition.CommandLine.Basic
import RequestCondition.FileSystem.Probe
import RequestCondition.Main
import RequestCondition.Proofs.Parser.Phrase
import RequestCondition.Proofs.Parser.Steps
import RequestCondition.Proofs.Parser.Soundness
import RequestCondition.Proofs.Parser.Completeness
import RequestCondition.Proofs.Lexer.Reading
import RequestCondition.Proofs.Parser.Acceptance
import RequestCondition.Proofs.Parser.Height
import RequestCondition.Proofs.Evaluator.Actions
import RequestCondition.Proofs.Evaluator.Memory
import RequestCondition.Proofs.Evaluator.Strictness
import RequestCondition.Proofs.Parser.Failure
import RequestCondition.Proofs.Parser.FirstError
import RequestCondition.Proofs.Lexer.Literal
import RequestCondition.Proofs.Lexer.Swap
import RequestCondition.Proofs.Lexer.Splice
import RequestCondition.Proofs.Lexer.Modes
import RequestCondition.Proofs.Lexer.Coverage
import RequestCondition.Proofs.Parser.Place
import RequestCondition.Proofs.Lexer.Spelling
import RequestCondition.Proofs.Parser.Misplaced
import RequestCondition.Proofs.Parser.Lockstep
import RequestCondition.Proofs.Lexer.Layout
import RequestCondition.Proofs.Lexer.Template
import RequestCondition.Proofs.Parser.Template
import RequestCondition.Proofs.Wildcard.Matching
import RequestCondition.Proofs.Evaluator.Questions
import RequestCondition.Proofs.Decimal.Value
import RequestCondition.Proofs.Decimal.Rounding
import RequestCondition.Proofs.Evaluator.Alike
import RequestCondition.Proofs.Decimal.Numeral
import RequestCondition.Proofs.Decimal.Coercion
import RequestCondition.Proofs.Text.Bytes
import RequestCondition.Proofs.Decimal.Text
import RequestCondition.Proofs.Network.Block
import RequestCondition.Proofs.Text.Percent
import RequestCondition.Proofs.Unicode.LowerForm
import RequestCondition.Proofs.Wildcard.Folding
import RequestCondition.Proofs.Network.Rejection
import RequestCondition.Proofs.Lexer.RegexLiteral
import RequestCondition.Proofs.Parser.Verbatim
import RequestCondition.Proofs.Evaluator.Operands
import RequestCondition.Proofs.Evaluator.Skipping
import RequestCondition.Proofs.Evaluator.References
import RequestCondition.Proofs.Evaluator.Events
import RequestCondition.Proofs.Evaluator.Covered
import RequestCondition.Proofs.Evaluator.Phrasing
import RequestCondition.Proofs.Evaluator.Independence
import RequestCondition.Proofs.Evaluator.Membership
import RequestCondition.Proofs.Evaluator.Interpolation
import RequestCondition.Proofs.Text.Order
import RequestCondition.Proofs.Parser.Nesting
import RequestCondition.Proofs.Parser.NormalForm
import RequestCondition.Proofs.Wildcard.Literal
import RequestCondition.Proofs.Regex.CaseFlag
import RequestCondition.Proofs.Lexer.Marked
import RequestCondition.Proofs.Parser.ClientTest
import RequestCondition.Proofs.Parser.CaseOption
import RequestCondition.Proofs.Double.Nearest
import RequestCondition.Proofs.Double.Shortest
import RequestCondition.Proofs.Json.Member
import RequestCondition.Proofs.Json.Numeral
import RequestCondition.Proofs.Json.RoundTrip
import RequestCondition.Proofs.Context.Binding
import RequestCondition.Proofs.Lexer.Balanced
import RequestCondition.Proofs.Lexer.Bracketing
