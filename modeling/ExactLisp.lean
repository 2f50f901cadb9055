import ExactLisp.Main
import ExactLisp.Proofs.Builtins
import ExactLisp.Proofs.CanonicalDecimals
import ExactLisp.Proofs.ExactLiterals
import ExactLisp.Proofs.ForwardReferences
import ExactLisp.Proofs.Independence
import ExactLisp.Proofs.LineByLine
import ExactLisp.Proofs.Printing
import ExactLisp.Proofs.QuotedData
import ExactLisp.Proofs.Scopes
import ExactLisp.Proofs.Equalities
import ExactLisp.Proofs.Congruence
import ExactLisp.Proofs.Compilable
import ExactLisp.Proofs.FaultPlaces
import ExactLisp.Proofs.HigherOrder
import ExactLisp.Proofs.Layout
import ExactLisp.Proofs.ParameterNames
import ExactLisp.Proofs.VisibleNames
import ExactLisp.Proofs.ArgumentPositions
import ExactLisp.Proofs.QuoteMarks
import ExactLisp.Proofs.GoodPrefixes
import ExactLisp.Proofs.Parsing
