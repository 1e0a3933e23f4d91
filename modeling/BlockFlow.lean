import BlockFlow.Main
import BlockFlow.Box.Store
import BlockFlow.Sheet.Session
import BlockFlow.Proofs.Number.Bits
import BlockFlow.Proofs.Number.Plain
import BlockFlow.Proofs.Sheet.Recognition
import BlockFlow.Proofs.Sheet.Recovery
import BlockFlow.Proofs.Sheet.Printing
import BlockFlow.Proofs.Sheet.RoundTrip
import BlockFlow.Proofs.Box.Flow
import BlockFlow.Proofs.Box.Outline
import BlockFlow.Proofs.Sheet.ErrorPlace
import BlockFlow.Proofs.Sheet.Reprinting
import BlockFlow.Proofs.Styled.Paths
import BlockFlow.Proofs.Styled.Loading
import BlockFlow.Proofs.Box.Width
import BlockFlow.Proofs.Styled.Exact
import BlockFlow.Proofs.Box.Origin
import BlockFlow.Proofs.Box.Sanity
import BlockFlow.Proofs.Box.Locality
import BlockFlow.Proofs.Box.Inertness
import BlockFlow.Proofs.Sheet.Sessions
import BlockFlow.Proofs.Sheet.Braces
import BlockFlow.Proofs.Text.Messages
import BlockFlow.Proofs.Text.Decoding
import BlockFlow.Proofs.Json.Places
import BlockFlow.Proofs.Command.Failures
import BlockFlow.Proofs.Sheet.Turns
import BlockFlow.Proofs.Sheet.Progress
import BlockFlow.Proofs.Box.Longhands
import BlockFlow.Proofs.Sheet.SelectorOrder
import BlockFlow.Proofs.Box.Stacking
import BlockFlow.Proofs.Box.Comparison
import BlockFlow.Proofs.Box.Displacement
import BlockFlow.Proofs.Box.Unshared
import BlockFlow.Proofs.Box.Acyclic
import BlockFlow.Proofs.Box.Relayout
import BlockFlow.Proofs.Box.Calls
import BlockFlow.Proofs.Box.Operations
import BlockFlow.Proofs.Sheet.Lengths
