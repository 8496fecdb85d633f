import BatchNorm.Buffer.Held
import BatchNorm.Trial.Scripted
import BatchNorm.Trial.Validation
import BatchNorm.Proofs.Layout.MixedRadix
import BatchNorm.Proofs.Layout.Order
import BatchNorm.Proofs.Layout.Cells
import BatchNorm.Proofs.Layout.Words
import BatchNorm.Proofs.Buffer.Reading
import BatchNorm.Proofs.Comparison.Listing
import BatchNorm.Proofs.Numeric.Finite
import BatchNorm.Proofs.Numeric.Special
import BatchNorm.Proofs.Verify.Accepted
import BatchNorm.Proofs.Verify.Backward
import BatchNorm.Proofs.Verify.Forward
import BatchNorm.Proofs.Verify.Independence
import BatchNorm.Proofs.Verify.SingleChannel
import BatchNorm.Proofs.Numeric.ExactSum
import BatchNorm.Proofs.Reference.ExactChannel
import BatchNorm.Proofs.Reference.Derivative
import BatchNorm.Proofs.Reference.Moments
import BatchNorm.Proofs.Buffer.Writing
import BatchNorm.Proofs.Buffer.Packing
import BatchNorm.Proofs.Buffer.RoundTrip
import BatchNorm.Proofs.Buffer.ChannelSlices
import BatchNorm.Proofs.Buffer.Clearing
import BatchNorm.Proofs.Verify.Limit
import BatchNorm.Proofs.Comparison.ExactDeviation
import BatchNorm.Proofs.Comparison.Resolution
import BatchNorm.Proofs.Comparison.EqualValues
import BatchNorm.Proofs.Numeric.Sign
import BatchNorm.Proofs.Comparison.Laws
import BatchNorm.Proofs.Verify.Localisation
import BatchNorm.Proofs.Verify.Refusal
import BatchNorm.Proofs.Verify.BackwardRefusal
import BatchNorm.Proofs.Verify.Findings
import BatchNorm.Proofs.Verify.Completeness
import BatchNorm.Proofs.Verify.NamedChannels
import BatchNorm.Proofs.Verify.NoFalseAlarm
import BatchNorm.Proofs.Numeric.Rounding
import BatchNorm.Proofs.Numeric.Binary32
import BatchNorm.Proofs.Numeric.Value
import BatchNorm.Proofs.Numeric.Bounds
import BatchNorm.Proofs.Numeric.Narrowing
import BatchNorm.Proofs.Comparison.Integers
import BatchNorm.Proofs.Verify.Quantized
import BatchNorm.Proofs.Comparison.Storage
import BatchNorm.Proofs.Comparison.Failing
import BatchNorm.Proofs.Verify.StoredValues
import BatchNorm.Proofs.Trial.Running
import BatchNorm.Proofs.Trial.Outcome
import BatchNorm.Proofs.Trial.CaseRun
import BatchNorm.Proofs.Trial.Agreement
import BatchNorm.Proofs.Trial.Completion
import BatchNorm.Proofs.Trial.Delivery
import BatchNorm.Proofs.Trial.Filling
import BatchNorm.Proofs.Trial.InPlace
import BatchNorm.Proofs.Trial.Rejection
import BatchNorm.Proofs.Trial.Recording
import BatchNorm.Proofs.Trial.TestData
import BatchNorm.Proofs.Reference.SelfAdjoint
import BatchNorm.Proofs.Numeric.HalfEven
import BatchNorm.Proofs.Numeric.Monotone
import BatchNorm.Proofs.Reference.Saturation
import BatchNorm.Proofs.Numeric.Arithmetic
import BatchNorm.Proofs.Numeric.SumTree
import BatchNorm.Proofs.Reference.FiniteChannel
import BatchNorm.Proofs.Verify.NormalizedOutput
import BatchNorm.Proofs.Numeric.RoundedSum
