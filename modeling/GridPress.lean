import GridPress.Main
import GridPress.Scratch
import GridPress.Proofs.Elements
import GridPress.Proofs.Stage.Differences
import GridPress.Proofs.Registry
import GridPress.Proofs.Chain
import GridPress.Proofs.Context
import GridPress.Proofs.Stream.Runs
import GridPress.Proofs.Stream.Framing
import GridPress.Proofs.Codec.Zstd
import GridPress.Proofs.Stream.Lossless
import GridPress.Proofs.Binary.Rounding
import GridPress.Proofs.Binary.Order
import GridPress.Proofs.Binary.Arithmetic
import GridPress.Proofs.Binary.Kind
import GridPress.Proofs.Binary.Log
import GridPress.Proofs.Grid
import GridPress.Proofs.Header
import GridPress.Proofs.Packing
import GridPress.Proofs.Stage.Quantize
import GridPress.Proofs.Stage.Abstol
import GridPress.Proofs.Stream.Tolerance
import GridPress.Proofs.Stage.Sigbits
import GridPress.Proofs.Stream.Inspection
import GridPress.Proofs.Session
import GridPress.Proofs.Accuracy
import GridPress.Proofs.Hints
import GridPress.Proofs.Stream.Size
import GridPress.Proofs.Packing.Bits
import GridPress.Proofs.Packing.Window
import GridPress.Proofs.Stream.Layout
import GridPress.Proofs.Validation.Relative
import GridPress.Proofs.Binary.Whole
import GridPress.Proofs.Validation.Exact
import GridPress.Proofs.Dims
import GridPress.Proofs.File
import GridPress.Proofs.CommandLine
import GridPress.Proofs.Accuracy.Bits
import GridPress.Proofs.Stage.Sigbits.Precision
import GridPress.Proofs.Stage.Sigbits.Rounding
import GridPress.Proofs.Chooser
import GridPress.Proofs.Stream.Destination
import GridPress.Proofs.Accuracy.Integers
import GridPress.Proofs.Stage.Fill
import GridPress.Proofs.Validation.Floor
import GridPress.Proofs.Validation.Ignored
import GridPress.Proofs.Accuracy.Distance
import GridPress.Proofs.Chain.Building
import GridPress.Proofs.Chain.Text
import GridPress.Proofs.Stage.Faults
import GridPress.Proofs.Stream.Types
import GridPress.Proofs.Dims.Volume
import GridPress.Proofs.Scratch
import GridPress.Proofs.Stage.Sigbits.Exponents
import GridPress.Proofs.Chooser.Sample
import GridPress.Proofs.Registry.Validation
import GridPress.Proofs.Writers
