import TwoPass.Main
import TwoPass.Pass.Bench
import TwoPass.Proofs.Trace
import TwoPass.Proofs.Outcome
import TwoPass.Proofs.Drift
import TwoPass.Proofs.Binding
import TwoPass.Proofs.Resolution
import TwoPass.Proofs.Agreement
import TwoPass.Proofs.Lines
import TwoPass.Proofs.Separators
import TwoPass.Proofs.Listing
import TwoPass.Proofs.Addressing
import TwoPass.Proofs.Arithmetic
import TwoPass.Proofs.Refinement
import TwoPass.Proofs.Independence
import TwoPass.Proofs.Parts
import TwoPass.Proofs.Gist
import TwoPass.Proofs.Formatting
import TwoPass.Proofs.Padding
import TwoPass.Proofs.Delivery
import TwoPass.Proofs.Codec
import TwoPass.Proofs.Files
import TwoPass.Proofs.Provenance
import TwoPass.Proofs.Outputs
import TwoPass.Proofs.Relabelling
import TwoPass.Proofs.Reuse
import TwoPass.Proofs.Failures
import TwoPass.Proofs.Interruption
import TwoPass.Proofs.Conversion
import TwoPass.Proofs.Safety
import TwoPass.Proofs.Loading
import TwoPass.Proofs.SymbolFile
import TwoPass.Proofs.Refusals
import TwoPass.Proofs.Display
import TwoPass.Proofs.Exits
import TwoPass.Proofs.Conclusion
import TwoPass.Proofs.BelowZero
import TwoPass.Proofs.Grammar
import TwoPass.Proofs.Fields
import TwoPass.Proofs.Formula
import TwoPass.Proofs.Apart
import TwoPass.Proofs.Collision
import TwoPass.Proofs.Splitting
import TwoPass.Proofs.EmptyName
import TwoPass.Proofs.History
import TwoPass.Proofs.Resurvey
import TwoPass.Proofs.Decomposition
