import BatchNorm.Failure

/-!
# Modes of a run

Which statistics a run normalizes with, whether it has affine parameters, and
whether it is a training run. Primitives take these as a propagation kind with
flags, and `Normalization.ofFlags` reads them.
-/

set_option autoImplicit false

namespace BatchNorm

inductive Propagation where
  /-- The run reports the statistics it computed. -/
  | training
  /-- The run keeps its statistics to itself. -/
  | inference
deriving DecidableEq, Repr

namespace Propagation

def name : Propagation → String
  | training => "forward_training"
  | inference => "forward_inference"

def ofName? (name : String) : Option Propagation := [training, inference].find? (·.name = name)

end Propagation

inductive BackwardMode where
  /-- The gradient with respect to the input. -/
  | data
  /-- The gradients with respect to the input, the scale and the shift. -/
  | dataAndParameters
deriving DecidableEq, Repr

namespace BackwardMode

def name : BackwardMode → String
  | data => "backward_data"
  | dataAndParameters => "backward"

def ofName? (name : String) : Option BackwardMode :=
  [data, dataAndParameters].find? (·.name = name)

end BackwardMode

structure Flags where
  globalStatistics : Bool := false
  scaleShift : Bool := false
deriving DecidableEq, Repr

namespace Flags

/-- The flags in the two low bits of a number; the other bits mean nothing. -/
def ofInt (bits : Int) : Flags := ⟨bits % 2 = 1, bits / 2 % 2 = 1⟩

def toNat (f : Flags) : Nat :=
  (if f.globalStatistics then 1 else 0) + (if f.scaleShift then 2 else 0)

end Flags

structure Normalization where
  epsilon : Float
  computeStatistics : Bool := true
  hasAffine : Bool := false
  isTraining : Bool := true

namespace Normalization

/-- The modes which a propagation kind and flags stand for. A run of no known
kind is no training run. -/
def ofFlags (epsilon : Float) (flags : Flags) (kind : Option Propagation) : Normalization where
  epsilon := epsilon
  computeStatistics := !flags.globalStatistics
  hasAffine := flags.scaleShift
  isTraining := kind = some .training

def flags (n : Normalization) : Flags := ⟨!n.computeStatistics, n.hasAffine⟩

/-- Whether the statistics buffers take part in a forward run: supplied ones
are read, and a training run reports those it computed. -/
def exposesStatistics (n : Normalization) : Bool := !n.computeStatistics || n.isTraining

end Normalization

end BatchNorm
