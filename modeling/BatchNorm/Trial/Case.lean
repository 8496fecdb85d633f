import BatchNorm.Run.Normalization
import BatchNorm.Element

/-!
# The cases of a trial

A primitive is run through every combination of modes that applies to its
precision. Quantized primitives only run inference with supplied statistics, and
they have no backward direction.
-/

set_option autoImplicit false

namespace BatchNorm

/-- The name of a case: its kind, then its flags. -/
def caseName (kind : String) (flags : Flags) : String :=
  "|".intercalate (kind ::
    ((if flags.globalStatistics then ["use_global_stats"] else []) ++
      (if flags.scaleShift then ["use_scale_shift"] else [])))

structure ForwardCase where
  kind : Propagation
  flags : Flags := {}
deriving DecidableEq, Repr

namespace ForwardCase

def name (c : ForwardCase) : String := caseName c.kind.name c.flags

def normalization (c : ForwardCase) (epsilon : Float) : Normalization :=
  .ofFlags epsilon c.flags (some c.kind)

def all : Precision → List ForwardCase
  | .f32 => [
      ⟨.training, ⟨false, false⟩⟩,
      ⟨.training, ⟨true, false⟩⟩,
      ⟨.training, ⟨false, true⟩⟩,
      ⟨.training, ⟨true, true⟩⟩,
      ⟨.inference, ⟨false, false⟩⟩,
      ⟨.inference, ⟨true, false⟩⟩,
      ⟨.inference, ⟨false, true⟩⟩]
  | .s8 => [⟨.inference, ⟨true, false⟩⟩, ⟨.inference, ⟨true, true⟩⟩]

end ForwardCase

structure BackwardCase where
  mode : BackwardMode
  flags : Flags := {}
deriving DecidableEq, Repr

namespace BackwardCase

def name (c : BackwardCase) : String := caseName c.mode.name c.flags

def normalization (c : BackwardCase) (epsilon : Float) : Normalization :=
  .ofFlags epsilon c.flags (some .training)

def all : Precision → List BackwardCase
  | .f32 => [
      ⟨.data, ⟨false, false⟩⟩,
      ⟨.data, ⟨true, false⟩⟩,
      ⟨.data, ⟨false, true⟩⟩,
      ⟨.data, ⟨true, true⟩⟩,
      ⟨.dataAndParameters, ⟨false, true⟩⟩,
      ⟨.dataAndParameters, ⟨true, true⟩⟩]
  | .s8 => []

end BackwardCase

inductive TrialCase where
  | forward (c : ForwardCase)
  | backward (c : BackwardCase)
deriving DecidableEq, Repr

namespace TrialCase

def name : TrialCase → String
  | forward c => c.name
  | backward c => c.name

def normalization : TrialCase → Float → Normalization
  | forward c => c.normalization
  | backward c => c.normalization

/-- What the run of a case produces, for backward cases. -/
def backwardMode? : TrialCase → Option BackwardMode
  | forward _ => none
  | backward c => some c.mode

/-- The cases of a precision, the forward ones first. -/
def all (p : Precision) : List TrialCase :=
  (ForwardCase.all p).map forward ++ (BackwardCase.all p).map backward

end TrialCase

end BatchNorm
