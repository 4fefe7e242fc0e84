import Jolt.CommandLine
import Jolt.Main
import Jolt.Number.Bits
import Jolt.Proofs.Diagnostic.Location
import Jolt.Proofs.Dialogue.Agreement
import Jolt.Proofs.Evaluation.Batch
import Jolt.Proofs.Evaluation.Comparison
import Jolt.Proofs.Evaluation.Compound
import Jolt.Proofs.Evaluation.Frame
import Jolt.Proofs.Evaluation.Operators
import Jolt.Proofs.Evaluation.Present
import Jolt.Proofs.Golden.Accounting
import Jolt.Proofs.Golden.Verdict
import Jolt.Proofs.Grammar.Endings
import Jolt.Proofs.Grammar.Total
import Jolt.Proofs.Grammar.Yield
import Jolt.Proofs.Layout.Exact
import Jolt.Proofs.Layout.RoundTrip
import Jolt.Proofs.Number.Denotation
import Jolt.Proofs.Number.Nearest
import Jolt.Proofs.Number.Shown
import Jolt.Proofs.Number.Spelling
import Jolt.Proofs.Service.Isolation
import Jolt.Proofs.Token.Blanks
import Jolt.Service
import Jolt.Variables
