import BindOnce.CallStack
import BindOnce.Channel
import BindOnce.CharSet
import BindOnce.Config
import BindOnce.Diagnostic
import BindOnce.Env
import BindOnce.Eval.Call
import BindOnce.Eval.Callback
import BindOnce.Eval.Expr
import BindOnce.Eval.State
import BindOnce.Eval.Stmt
import BindOnce.Failure
import BindOnce.Interner
import BindOnce.Interpreter
import BindOnce.Name
import BindOnce.Number.Arithmetic
import BindOnce.Number.Binary64
import BindOnce.Number.Numeral
import BindOnce.Number.Shortest
import BindOnce.Operation
import BindOnce.Operator
import BindOnce.Proofs.ActiveCalls
import BindOnce.Proofs.CallLog
import BindOnce.Proofs.Calling
import BindOnce.Proofs.Carried
import BindOnce.Proofs.Conditionals
import BindOnce.Proofs.Course
import BindOnce.Proofs.DepthLimit
import BindOnce.Proofs.EarlyLookup
import BindOnce.Proofs.Ends
import BindOnce.Proofs.EnvFamilies
import BindOnce.Proofs.Equalities
import BindOnce.Proofs.FailureLines
import BindOnce.Proofs.FunctionOrigin
import BindOnce.Proofs.HandInHand
import BindOnce.Proofs.Holds
import BindOnce.Proofs.Interning
import BindOnce.Proofs.InterningOrder
import BindOnce.Proofs.ListIdentity
import BindOnce.Proofs.ListLedger
import BindOnce.Proofs.ListNumbers
import BindOnce.Proofs.ListOperators
import BindOnce.Proofs.ListTexts
import BindOnce.Proofs.Matching
import BindOnce.Proofs.MatchingSteps
import BindOnce.Proofs.Moments
import BindOnce.Proofs.NamesInTrees
import BindOnce.Proofs.NumberValues
import BindOnce.Proofs.Numerals
import BindOnce.Proofs.Output
import BindOnce.Proofs.Parameters
import BindOnce.Proofs.PipeAndCall
import BindOnce.Proofs.PlainTrees
import BindOnce.Proofs.Plan
import BindOnce.Proofs.Planner
import BindOnce.Proofs.Repeatability
import BindOnce.Proofs.Repetition
import BindOnce.Proofs.Reports
import BindOnce.Proofs.Rounding
import BindOnce.Proofs.SelfMatching
import BindOnce.Proofs.Sessions
import BindOnce.Proofs.Settings
import BindOnce.Proofs.ShortestDigits
import BindOnce.Proofs.SingleAssignment
import BindOnce.Proofs.Steps
import BindOnce.Proofs.Termination
import BindOnce.Proofs.Unmentioned
import BindOnce.Proofs.WholeNumbers
import BindOnce.Proofs.Yielding
import BindOnce.Run
import BindOnce.Setting
import BindOnce.Syntax
import BindOnce.Syntax.Equality
import BindOnce.Syntax.Traverse
import BindOnce.Token
import BindOnce.Value
import BindOnce.Value.Display
import BindOnce.Value.Equality
import BindOnce.Value.Words
