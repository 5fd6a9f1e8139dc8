import TypedRouting.Path
import TypedRouting.Text.Lowercase
import TypedRouting.Text.Quoted
import TypedRouting.Numeral.Decimal
import TypedRouting.Scalar.Conversion
import TypedRouting.Parameter
import TypedRouting.Pattern.Declaration
import TypedRouting.Pattern.Score
import TypedRouting.Operation.Invocation
import TypedRouting.Routing.Router
import TypedRouting.Document
import TypedRouting.Inspection
import TypedRouting.Proofs.Outcome
import TypedRouting.Proofs.Splitting
import TypedRouting.Proofs.Registration
import TypedRouting.Proofs.Batch
import TypedRouting.Proofs.Declaration
import TypedRouting.Proofs.Lifecycle
import TypedRouting.Proofs.Selection
import TypedRouting.Proofs.LetterCase
import TypedRouting.Proofs.ScoreBound
import TypedRouting.Proofs.Priority
import TypedRouting.Proofs.Binding
import TypedRouting.Proofs.Fitting
import TypedRouting.Proofs.Agreement
import TypedRouting.Proofs.Substitution
import TypedRouting.Proofs.Dispatch
import TypedRouting.Proofs.Runs
import TypedRouting.Proofs.Lowercase
import TypedRouting.Proofs.PlaceholderForms
import TypedRouting.Proofs.PlaceholderCase
import TypedRouting.Proofs.PatternLayout
import TypedRouting.Proofs.Normalisation
import TypedRouting.Proofs.WholeNumbers
import TypedRouting.Proofs.DecimalText
import TypedRouting.Proofs.Leftmost
import TypedRouting.Proofs.Gaps
import TypedRouting.Proofs.WholeTexts
import TypedRouting.Proofs.Reordering
import TypedRouting.Proofs.Wording
import TypedRouting.Proofs.Refusals
import TypedRouting.Proofs.Grades
import TypedRouting.Proofs.Ranking
import TypedRouting.Proofs.DecimalGrammar
import TypedRouting.Proofs.DecimalLayout
import TypedRouting.Proofs.FloatTexts
import TypedRouting.Proofs.Slots
import TypedRouting.Proofs.Extraction
import TypedRouting.Proofs.Stages
import TypedRouting.Proofs.Literals
import TypedRouting.Proofs.ScoreWidth
import TypedRouting.Proofs.TypedCalls
import TypedRouting.Proofs.ArgumentQueue
import TypedRouting.Proofs.OperationNames
import TypedRouting.Proofs.Offsets
import TypedRouting.Proofs.DecimalOffsets
