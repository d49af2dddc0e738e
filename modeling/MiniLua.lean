import MiniLua.Exec.Call
import MiniLua.Main
import MiniLua.Syntax.Descent
import MiniLua.Syntax.Desugar
import MiniLua.Syntax.Grammar
import MiniLua.Syntax.WellFormed
import MiniLua.Workspace
import MiniLua.Proofs.Refusal
import MiniLua.Proofs.RoundTrip
import MiniLua.Proofs.Behaviour
import MiniLua.Proofs.Meaning
import MiniLua.Proofs.Dependence
import MiniLua.Proofs.Interruption
import MiniLua.Proofs.Loading
import MiniLua.Proofs.Readers
import MiniLua.Proofs.Spacing
import MiniLua.Proofs.Safety
import MiniLua.Proofs.Sequencing
import MiniLua.Proofs.Sharing
import MiniLua.Proofs.Descent
import MiniLua.Proofs.Defects
import MiniLua.Proofs.Positions
import MiniLua.Proofs.Invocation
import MiniLua.Proofs.Reports
import MiniLua.Proofs.Agreement
import MiniLua.Proofs.Characters
import MiniLua.Proofs.Tokenizing
import MiniLua.Proofs.Loops
import MiniLua.Proofs.Arithmetic
import MiniLua.Proofs.Lookup
import MiniLua.Proofs.Records
import MiniLua.Proofs.Validity
import MiniLua.Proofs.Recency
import MiniLua.Proofs.Dumps
import MiniLua.Proofs.Consumption
import MiniLua.Proofs.Diagnosis
import MiniLua.Proofs.Idempotence
import MiniLua.Proofs.Iteration
import MiniLua.Proofs.Steadiness
import MiniLua.Proofs.Anchors
import MiniLua.Proofs.RecordKeys
import MiniLua.Proofs.Strictness
import MiniLua.Proofs.Variables
import MiniLua.Proofs.Exchanges
