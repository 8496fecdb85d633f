import BatchNorm.Trial.Run

/-!
# A scripted primitive

A plain implementation of batch normalization whose script makes it wrong on
purpose: it may compute with a different divisor, leave out the correction of
the gradient, damage single elements, do nothing at all, or fail at a call.
-/

set_option autoImplicit false

namespace BatchNorm

inductive Damage where
  | set
  | add
deriving DecidableEq, Repr

structure ElementFault where
  /-- The number of the call after which the damage is done. -/
  call : Int
  /-- The buffer of the element, or none if it has a name that no buffer has. -/
  buffer : Option Role
  index : Int
  how : Damage
  value : Float

/-- What a scripted primitive does. -/
structure Script where
  computes : Bool := true
  /-- What is taken off the divisor of the variance. -/
  ddof : Int := 0
  /-- Whether the gradient goes without its correction. -/
  dropCorrection : Bool := false
  /-- The call at which it fails, and how. -/
  raiseAt : Option (Int × FailureKind) := none
  faults : List ElementFault := []

/-- A store of buffers by role. -/
class BufferStore (β : Type) where
  /-- The buffer of a role; a role that the store does not have is a misuse. -/
  find : β → Role → Except Failure (Option Buffer)
  put : β → Role → Buffer → β

instance : BufferStore ForwardBuffers where
  find b
    | .src => .ok b.src
    | .dst => .ok b.dst
    | .mean => .ok b.mean
    | .variance => .ok b.variance
    | .scale => .ok b.scale
    | .shift => .ok b.shift
    | _ => misuse .foreignBuffer
  put b role x :=
    match role with
    | .src => { b with src := some x }
    | .dst => { b with dst := some x }
    | .mean => { b with mean := some x }
    | .variance => { b with variance := some x }
    | .scale => { b with scale := some x }
    | .shift => { b with shift := some x }
    | _ => b

instance : BufferStore BackwardBuffers where
  find b
    | .src => .ok b.src
    | .diffDst => .ok b.diffDst
    | .diffSrc => .ok b.diffSrc
    | .mean => .ok b.mean
    | .variance => .ok b.variance
    | .scale => .ok b.scale
    | .diffScale => .ok b.diffScale
    | .diffShift => .ok b.diffShift
    | _ => misuse .foreignBuffer
  put b role x :=
    match role with
    | .src => { b with src := some x }
    | .diffDst => { b with diffDst := some x }
    | .diffSrc => { b with diffSrc := some x }
    | .mean => { b with mean := some x }
    | .variance => { b with variance := some x }
    | .scale => { b with scale := some x }
    | .diffScale => { b with diffScale := some x }
    | .diffShift => { b with diffShift := some x }
    | _ => b

namespace BufferStore

variable {β : Type} [BufferStore β]

/-- The buffer of a role, which has to exist. -/
def demand (b : β) (role : Role) : Except Failure Buffer := do
  match ← find b role with
  | some x => return x
  | none => misuse .absentBuffer

def readAt (b : β) (role : Role) (i : Int) : Except Failure Float := do
  (← demand b role).readFloat i

def writeAt (b : β) (role : Role) (i : Int) (x : Float) : Except Failure β := do
  return put b role (← (← demand b role).writeFloat i x)

def writeAll (b : β) (role : Role) (indices : List Int) (xs : List Float) : Except Failure β := do
  return put b role (← (← demand b role).scatterFloats (indices.zip xs))

def damage (b : β) (fault : ElementFault) : Except Failure β :=
  match fault.buffer, fault.how with
  | none, _ => misuse .foreignBuffer
  | some role, .set => writeAt b role fault.index fault.value
  | some role, .add => do
    let old ← readAt b role fault.index
    writeAt b role fault.index (old + fault.value)

end BufferStore

namespace Script

open BufferStore

/-- The sum of some numbers from left to right. -/
def plainSum (xs : List Float) : Float := xs.foldl (· + ·) 0

def inverse (config : RunConfig) (variance : Float) : Float :=
  inverseDeviation variance config.normalization.epsilon

/-- The places that a layout has for channel `c` of a run. The layout may be one for
another shape; places are looked up for the shape of the run. -/
def places (config : RunConfig) (l : Layout) (c : Nat) : List Int :=
  config.shape.sites.map fun site => l.offset (site.inChannel c)

def forwardChannel (script : Script) (config : RunConfig) (b : ForwardBuffers) (c : Nat) :
    Except Failure ForwardBuffers := do
  let xs ← (← demand b .src).gatherFloats (places config b.srcLayout c)
  let count := xs.length
  let modes := config.normalization
  let (b, mean, variance) ←
    if modes.computeStatistics then
      let mean := plainSum xs / (count : Float)
      let squares := plainSum (xs.map fun x => (x - mean) * (x - mean))
      let variance := squares / Float.ofInt ((count : Int) - script.ddof)
      if modes.isTraining then
        let b ← writeAt b .mean c mean
        let b ← writeAt b .variance c variance
        pure (b, mean, variance)
      else pure (b, mean, variance)
    else
      let mean ← readAt b .mean c
      let variance ← readAt b .variance c
      pure (b, mean, variance)
  let factor := inverse config variance
  let ys := xs.map fun x => (x - mean) * factor
  let ys ←
    if modes.hasAffine then
      let scale ← readAt b .scale c
      let shift ← readAt b .shift c
      pure (ys.map fun y => scale * y + shift)
    else pure ys
  writeAll b .dst (places config b.outputLayout c) (ys.map config.precision.stored)

def backwardChannel (script : Script) (config : RunConfig) (b : BackwardBuffers) (c : Nat) :
    Except Failure BackwardBuffers := do
  let xs ← (← demand b .src).gatherFloats (places config b.srcLayout c)
  let gs ← (← demand b .diffDst).gatherFloats (places config b.gradientLayout c)
  let count : Float := (xs.length : Float)
  let mean ← readAt b .mean c
  let factor := inverse config (← readAt b .variance c)
  let normalized := xs.map fun x => (x - mean) * factor
  let diffScale := plainSum (List.zipWith (fun g y => g * y) gs normalized)
  let diffShift := plainSum gs
  let gamma ← if config.normalization.hasAffine then readAt b .scale c else pure 1
  let corrected :=
    if config.normalization.computeStatistics && !script.dropCorrection then
      List.zipWith (fun g y => g - (diffShift + y * diffScale) / count) gs normalized
    else gs
  let b ← writeAll b .diffSrc (places config b.outputLayout c)
    (corrected.map fun g => g * (gamma * factor))
  match config.backwardMode with
  | some .dataAndParameters =>
    let b ← writeAt b .diffScale c diffScale
    writeAt b .diffShift c diffShift
  | _ => return b

/-- The failure of a kind that a script asks for. -/
def failureOf (kind : FailureKind) : Failure :=
  match kind with
  | .verification => .verification ⟨"[scripted]", [], 32⟩
  | kind => .raised kind "scripted"

/-- What one call does: it fails if the script says so; otherwise it computes the
channels in order and damages elements then. -/
def perform {β : Type} [BufferStore β] (script : Script) (config : RunConfig)
    (channel : β → Nat → Except Failure β) (call : Int) (b : β) : Except Failure β := do
  match script.raiseAt with
  | some (number, kind) => if number = call then throw (failureOf kind)
  | none => pure ()
  let b ←
    if script.computes && !config.shape.isEmpty then
      (List.range config.shape.channels).foldlM channel b
    else pure b
  (script.faults.filter (·.call = call)).foldlM damage b

/-- The primitive of a script. Its state lists the configurations of the calls so
far. -/
def primitive (script : Script) : Primitive (List String) where
  forward config b calls :=
    (script.perform config (script.forwardChannel config) calls.length b,
      calls ++ [config.describe])
  backward config b calls :=
    (script.perform config (script.backwardChannel config) calls.length b,
      calls ++ [config.describe])

end Script

end BatchNorm
