import TemplateExpr.Expr.Outline
import TemplateExpr.Main
import TemplateExpr.Proofs.Source.Cursor
import TemplateExpr.Proofs.Decimal.NormalForm
import TemplateExpr.Proofs.Decimal.Results
import TemplateExpr.Proofs.Numeral.Grammar
import TemplateExpr.Proofs.Source.Opening
import TemplateExpr.Proofs.Numeral.Reading
import TemplateExpr.Proofs.Numeral.Acceptance
import TemplateExpr.Proofs.Decimal.TextRoundTrip
import TemplateExpr.Proofs.Evaluation.Script
import TemplateExpr.Proofs.Evaluation.Reach
import TemplateExpr.Proofs.Evaluation.Laziness
import TemplateExpr.Proofs.Token.Spelling
import TemplateExpr.Proofs.Token.TextSpelling
import TemplateExpr.Proofs.Expr.Tokens
import TemplateExpr.Proofs.Expr.Writing
import TemplateExpr.Proofs.Expr.Reading
import TemplateExpr.Proofs.Expr.ReadingReferences
import TemplateExpr.Proofs.Expr.ReadingSegments
import TemplateExpr.Proofs.Expr.TemplateReading
import TemplateExpr.Proofs.Expr.Ladder
import TemplateExpr.Proofs.Expr.Printable
import TemplateExpr.Proofs.Expr.RoundTrip
import TemplateExpr.Proofs.Function.Calls
import TemplateExpr.Proofs.Evaluation.Native
import TemplateExpr.Proofs.Evaluation.Lockstep
import TemplateExpr.Proofs.Evaluation.Simulation
import TemplateExpr.Proofs.Evaluation.Outcomes
import TemplateExpr.Proofs.Evaluation.Cancellation
import TemplateExpr.Proofs.Evaluation.Calls
import TemplateExpr.Proofs.Evaluation.Transparency
import TemplateExpr.Proofs.Expr.LookBacks
import TemplateExpr.Proofs.Evaluation.Templates
import TemplateExpr.Proofs.Evaluation.Agreement
import TemplateExpr.Proofs.Expr.ModeSwitch
import TemplateExpr.Proofs.Source.Decoding
import TemplateExpr.Proofs.Expr.Composition
import TemplateExpr.Proofs.Token.Scanning
import TemplateExpr.Proofs.Expr.Exhaustion
import TemplateExpr.Proofs.Expr.Termination
import TemplateExpr.Proofs.Numeral.MaximalMunch
import TemplateExpr.Proofs.Evaluation.EscapedTemplates
import TemplateExpr.Proofs.Decimal.Order
import TemplateExpr.Proofs.Value.Comparison
import TemplateExpr.Proofs.Numeral.Lexemes
import TemplateExpr.Proofs.Token.Filler
import TemplateExpr.Proofs.Token.Terminals
import TemplateExpr.Proofs.Token.Progress
import TemplateExpr.Proofs.Function.Arity
import TemplateExpr.Proofs.Function.Marshalling
import TemplateExpr.Proofs.Evaluation.BoundCalls
import TemplateExpr.Proofs.Expr.Pooling
import TemplateExpr.Proofs.Expr.PoolBlindness
import TemplateExpr.Proofs.Evaluation.Statelessness
import TemplateExpr.Proofs.Evaluation.SharedContext
import TemplateExpr.Proofs.Timestamp.TextRoundTrip
import TemplateExpr.Proofs.Numeral.Readers
import TemplateExpr.Proofs.Properties.Layout
import TemplateExpr.Proofs.Value.Conversions
import TemplateExpr.Proofs.Decimal.RoundingModes
import TemplateExpr.Proofs.Decimal.Powers
import TemplateExpr.Proofs.Evaluation.Names
import TemplateExpr.Proofs.Timestamp.Range
import TemplateExpr.Proofs.Timestamp.Acceptance
import TemplateExpr.Proofs.Properties.UnicodeEscapes
import TemplateExpr.Proofs.Source.Reserved
import TemplateExpr.Proofs.Decimal.ScaleRange
import TemplateExpr.Proofs.Decimal.Arithmetic
import TemplateExpr.Proofs.Decimal.ExactQuotients
import TemplateExpr.Proofs.Decimal.ExactPowers
import TemplateExpr.Proofs.Decimal.IntegerDivision
import TemplateExpr.Proofs.Function.Finding
import TemplateExpr.Proofs.Evaluation.Slices
import TemplateExpr.Proofs.Numeral.Separators
import TemplateExpr.Proofs.Numeral.SeparatorScan
import TemplateExpr.Proofs.Numeral.SeparatorErrors
import TemplateExpr.Proofs.Value.Interning
import TemplateExpr.Proofs.Symbols.Chains
import TemplateExpr.Proofs.Bits.Arithmetic
import TemplateExpr.Proofs.Evaluation.BitOperators
import TemplateExpr.Proofs.Settings.Lines
import TemplateExpr.Proofs.Duration.Reading
import TemplateExpr.Proofs.CommandLine.Renderings
import TemplateExpr.Proofs.Source.Ahead
import TemplateExpr.Proofs.Decimal.IntegerViews
