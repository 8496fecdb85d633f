import BatchNorm.Layout.Format
import BatchNorm.Trial.Run

/-!
# Validating a primitive

A validation runs a primitive through all cases of a precision. It stops at the
first case that fails, which is an outcome of its own when the primitive was
expected to reject the configuration.

* `runCases` runs cases in order and stops at the first failure.
* `Validation.outcome` decides what a finished or stopped run amounts to.
* `validate` does both.
-/

set_option autoImplicit false

namespace BatchNorm

structure CaseResult where
  name : String
  verdict : Verdict

def CaseResult.passed (r : CaseResult) : Bool := r.verdict.passed

/-- What a validation is about. -/
structure Validation where
  shape : Shape
  dataFormat : String
  diffFormat : Option String := none
  epsilon : Float := 1e-5
  /-- The form of the activations. What names no precision is none, which shows when
  the cases are listed. -/
  precision : Option Precision := some .f32
  tolerance : Tolerance := {}
  numThreads : Option Int := none
  raiseOnFailure : Bool := true
  /-- The kind of failure by which the primitive has to reject the
  configuration. -/
  expected : Option FailureKind := none

/-- Runs cases in order. The results are those of the cases before the first
failure, with that failure if there is one. -/
def runCases {γ σ : Type} (run : TrialCase → Trial γ σ Verdict) :
    List TrialCase → StateM (Bench γ σ) (List CaseResult × Option Failure)
  | [] => pure ([], none)
  | case :: rest => do
    match ← (run case).run with
    | .error e => return ([], some e)
    | .ok verdict =>
      let (results, failure) ← runCases run rest
      return (⟨case.name, verdict⟩ :: results, failure)

namespace Validation

/-- The memory format of the gradients; an empty name stands for that of the
activations. -/
def gradientFormat (v : Validation) : String :=
  match v.diffFormat with
  | none => v.dataFormat
  | some name => if name.isEmpty then v.dataFormat else name

def description (v : Validation) : String :=
  s!"{Fault.extents v.shape.dims} {v.dataFormat}/{v.gradientFormat}"

def configOf (v : Validation) (precision : Precision) (case : TrialCase) :
    Except Failure RunConfig :=
  RunConfig.make v.shape (case.normalization v.epsilon) precision case.backwardMode? v.tolerance
    v.numThreads

/-- Whether a failure is the rejection that was expected. Mismatches never
are. -/
def isRejection (v : Validation) (e : Failure) : Bool :=
  match v.expected with
  | none => false
  | some expected => e.kind.isA expected && !e.kind.isA .verification

variable {γ σ : Type}

/-- What the results of a run and its failure amount to. An expected rejection
gives the results before it; a run that finishes without the rejection it was
to meet fails. -/
def outcome (v : Validation) (results : List CaseResult) (failure : Option Failure) :
    Trial γ σ (List CaseResult) := do
  match failure with
  | some e =>
    if v.isRejection e then
      Trial.log .info <|
        s!"primitive rejected {v.description} with {e.kind.name} " ++
          s!"after {results.length} case(s)"
      return results
    else throw e
  | none =>
    match v.expected with
    | some expected => throw (.unexpectedSuccess expected v.description results.length)
    | none =>
      let passed := (results.filter (·.passed)).length
      Trial.log .info s!"{passed}/{results.length} cases passed for {v.description}"
      return results

def runOne [RandomSource γ] (v : Validation) (precision : Precision) (primitive : Primitive σ)
    (layout diffLayout : Layout) (case : TrialCase) : Trial γ σ Verdict := do
  let config ← Trial.ofExcept (v.configOf precision case)
  runCase primitive case config layout diffLayout v.raiseOnFailure

/-- Runs the cases of the precision in order. Without a precision there are none, and
that is a failure before the first of them. -/
def runAll [RandomSource γ] (v : Validation) (primitive : Primitive σ)
    (layout diffLayout : Layout) : StateM (Bench γ σ) (List CaseResult × Option Failure) :=
  match v.precision with
  | some precision =>
    runCases (v.runOne precision primitive layout diffLayout) (TrialCase.all precision)
  | none => pure ([], some (.misuse .unknownPrecision))

end Validation

/-- Runs a primitive through all cases of a precision. Its layouts and its description come
first, and no failure of theirs is a rejection. -/
def validate {γ σ : Type} [RandomSource γ] (v : Validation) (primitive : Primitive σ) :
    Trial γ σ (List CaseResult) := do
  let layout ← Trial.ofExcept (Layout.ofFormat v.dataFormat v.shape)
  let diffLayout ← Trial.ofExcept (Layout.ofFormat v.gradientFormat v.shape)
  Trial.ofExcept v.shape.demandTexts
  let run : StateM (Bench γ σ) (List CaseResult × Option Failure) :=
    v.runAll primitive layout diffLayout
  let (results, failure) ← run
  v.outcome results failure

end BatchNorm
