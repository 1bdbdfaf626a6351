import InvertibleNet.Main
import InvertibleNet.Proofs.Network.Acceptance
import InvertibleNet.Proofs.Network.Image
import InvertibleNet.Proofs.Network.Run
import InvertibleNet.Proofs.Coupling.Trace
import InvertibleNet.Proofs.Network.Domain
import InvertibleNet.Proofs.Network.Trace
import InvertibleNet.Proofs.Tensor.Selection
import InvertibleNet.Proofs.Layer.Selection
import InvertibleNet.Proofs.Coupling.Selection
import InvertibleNet.Proofs.Network.Batch
import InvertibleNet.Proofs.Network.Probe
import InvertibleNet.Proofs.Storage.Checkpoint
import InvertibleNet.Proofs.Coupling.Recovery
import InvertibleNet.Proofs.Command.Initialise
import InvertibleNet.Proofs.Tensor.Refusal
import InvertibleNet.Proofs.Tensor.Permutation
import InvertibleNet.Proofs.Coupling.Domain
import InvertibleNet.Proofs.Coupling.Saturation
import InvertibleNet.Proofs.Network.Defaults
import InvertibleNet.Proofs.Network.Geometry
import InvertibleNet.Proofs.Command.Depth
import InvertibleNet.Proofs.Network.Restart
import InvertibleNet.Proofs.Command.Rereading
import InvertibleNet.Proofs.Tensor.Padding
import InvertibleNet.Proofs.Binary.Nearest
import InvertibleNet.Proofs.Binary.Rounding
import InvertibleNet.Proofs.Command.Arguments
import InvertibleNet.Proofs.Json.Scaling
import InvertibleNet.Proofs.Decimal.Separation
import InvertibleNet.Proofs.Decimal.Shortest
import InvertibleNet.Proofs.Json.Literal
import InvertibleNet.Proofs.Decimal.Rereading
import InvertibleNet.Proofs.Report.Document
import InvertibleNet.Proofs.Network.Layers
import InvertibleNet.Proofs.Tensor.Metric
