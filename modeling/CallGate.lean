import CallGate.Proofs.Accessors
import CallGate.Proofs.Alterations
import CallGate.Proofs.Arity
import CallGate.Proofs.Decoding
import CallGate.Proofs.FaultTerms
import CallGate.Proofs.Indentation
import CallGate.Proofs.MonotoneArithmetic
import CallGate.Proofs.Order
import CallGate.Proofs.ShortestTexts
import CallGate.Proofs.Streaming
import CallGate.Proofs.Traces
import CallGate.Session
