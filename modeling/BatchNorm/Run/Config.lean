import BatchNorm.Run.Normalization
import BatchNorm.Shape

/-!
# Configuration of a run

* `Tolerance` holds the constants of the comparison.
* `RunConfig` is a configuration that was accepted; `RunConfig.make` accepts or
  refuses one.
-/

set_option autoImplicit false

namespace BatchNorm

/-- The deviation that is allowed per reduced element unless told otherwise. -/
def standardEpsilonFactor {α : Type} [OfScientific α] : α := 1e-4

/-- The floor for outputs and gradients unless told otherwise. -/
def standardFloor {α : Type} [OfScientific α] : α := 1e-2

/-- The constants of the comparison, tuned on real primitives. An infinite
floor turns a relative comparison into an absolute one. -/
structure Tolerance where
  /-- The deviation allowed per reduced element. -/
  epsilonFactor : Float := standardEpsilonFactor
  statisticsFloor : Float := 1
  outputFloor : Float := standardFloor
  /-- The floor for quantized output, which is compared in absolute terms. -/
  quantizedFloor : Float := 1.0 / 0.0
  gradientFloor : Float := standardFloor
  diffSrcFloor : Float := standardFloor
  /-- The largest gradient that an empty tensor may have. -/
  emptyGradient : Float := 1e-7
  /-- How many mismatches of a channel are listed, and how many a message
  writes. Without a limit all are listed and no message can be written. -/
  maxReported : Option Int := some 32

/-- A deviation that grows with the number of reduced elements. -/
def scaledEpsilon {α : Type} [Mul α] [NatCast α] (factor : α) (count : Nat) : α :=
  factor * (count : α)

namespace Tolerance

/-- The largest deviation allowed for a shape. It needs a number of reduced
elements that binary64 can hold. -/
def epsilonFor (t : Tolerance) (shape : Shape) : Except Failure Float :=
  if (shape.reductionSize : Float).isFinite then
    .ok (scaledEpsilon t.epsilonFactor shape.reductionSize)
  else misuse .integerTooLarge

def outputFloorFor (t : Tolerance) : Precision → Float
  | .f32 => t.outputFloor
  | .s8 => t.quantizedFloor

end Tolerance

/-- A configuration that was accepted. -/
structure RunConfig where
  shape : Shape
  normalization : Normalization
  precision : Precision := .f32
  /-- What a backward run produces; forward runs have none. -/
  backwardMode : Option BackwardMode := none
  tolerance : Tolerance := {}
  numThreads : Option Int := none
  checkPadding : Bool := true
  /-- The epsilon is not negative; it may be a NaN. -/
  epsilon_nonneg : ¬ normalization.epsilon < 0
  threads_pos : ∀ n, numThreads = some n → 1 ≤ n

namespace RunConfig

def epsilon (c : RunConfig) : Except Failure Float := c.tolerance.epsilonFor c.shape

def withBackward (c : RunConfig) (mode : BackwardMode) : RunConfig :=
  { c with backwardMode := some mode }

/-- The direction of a run, and for a forward run its kind. -/
def direction (c : RunConfig) : String :=
  match c.backwardMode with
  | some mode => mode.name
  | none => if c.normalization.isTraining then "training" else "inference"

def describe (c : RunConfig) : String :=
  let s := c.shape
  let parts :=
    [s!"mb={s.batch} c={s.channels} d={s.depth} h={s.height} w={s.width}",
      "eps=" ++ roundedText 6 c.normalization.epsilon,
      c.precision.name,
      c.direction,
      if c.normalization.computeStatistics then "computed_stats" else "global_stats"]
  let affine := if c.normalization.hasAffine then ["scale_shift"] else []
  "[" ++ ", ".intercalate (parts ++ affine) ++ "]"

end RunConfig

/-- The configuration with the given settings. A negative epsilon is refused
first, then a thread count below one. -/
def RunConfig.make (shape : Shape) (normalization : Normalization) (precision : Precision)
    (backwardMode : Option BackwardMode := none) (tolerance : Tolerance := {})
    (numThreads : Option Int := none) (checkPadding : Bool := true) :
    Except Failure RunConfig :=
  if epsilon_nonneg : normalization.epsilon < 0 then refuse .negativeEpsilon
  else if threads_pos : ∀ n ∈ numThreads, 1 ≤ n then
    .ok {
      shape, normalization, precision, backwardMode, tolerance, numThreads, checkPadding
      epsilon_nonneg
      threads_pos := fun n h => threads_pos n h }
  else refuse .threadCount

/-- The precision that a literal names, if it names one. -/
def Precision.ofLiteral? : Literal → Option Precision
  | .text name => Precision.ofName? name
  | _ => none

/-- The precision that a literal names. -/
def Precision.ofLiteral (value : Literal) : Except Failure Precision :=
  match Precision.ofLiteral? value with
  | some precision => .ok precision
  | none => refuse (.precision value)

end BatchNorm
