import Calculator.Main
import Calculator.Syntax.Same
import Calculator.Proofs.Evaluation.Atomicity
import Calculator.Proofs.Number.Conservative
import Calculator.Proofs.Number.Stability
import Calculator.Proofs.Grammar.Program
import Calculator.Proofs.Lexer.Munch
import Calculator.Proofs.Lexer.Tiling
import Calculator.Proofs.Lexer.FirstRule
import Calculator.Proofs.Grammar.RoundTrip
import Calculator.Proofs.Grammar.EarlyErrors
import Calculator.Proofs.Evaluation.Joining
import Calculator.Proofs.Evaluation.ExplicitForm
import Calculator.Proofs.Evaluation.Scoping
import Calculator.Proofs.Evaluation.Straight
import Calculator.Proofs.Evaluation.ErrorPlaces
import Calculator.Proofs.Grammar.Layout
import Calculator.Proofs.Number.Widening
import Calculator.Proofs.Syntax.Recovery
import Calculator.Proofs.Evaluation.Termination
import Calculator.Proofs.Grammar.Fidelity
import Calculator.Proofs.Grammar.Requests
import Calculator.Proofs.Grammar.Returning
import Calculator.Proofs.Evaluation.IntegerTexts
import Calculator.Proofs.Lexer.FloatTexts
import Calculator.Proofs.Scopes.History
