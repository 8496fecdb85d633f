import BatchNorm.Element
import BatchNorm.Literal.Basic
import BatchNorm.Mismatch
import BatchNorm.Text.Integer

/-!
# What can go wrong

A `Failure` is why an operation gave no result: a setting that the library does
not accept (`Fault`), a run outside its tolerance, a run that was expected to
be rejected, an operation that was called wrongly (`Misuse`), or an error of the
primitive under test. Each belongs to a `FailureKind`, and the kinds form a
tree: whoever expects a kind accepts the kinds below it.

* `FailureKind.isA` is the order of that tree.
* `Fault.message` holds the wording of every refused setting.
-/

set_option autoImplicit false

namespace BatchNorm

/-- The kinds of failures: those that are named here, and kinds of a primitive's own. -/
inductive FailureKind where
  | any
  | exception
  | value
  | configuration
  | type
  | lookup
  | index
  | key
  | arithmetic
  | zeroDivision
  | overflow
  | missingPart
  | runtime
  | notImplemented
  | assertion
  | verification
  | unexpectedSuccess
  /-- A kind that lies directly below two others, or below one that is given twice. -/
  | derived (name : String) (first second : FailureKind)
deriving DecidableEq, Repr

namespace FailureKind

/-- The name of a kind, as log lines write it. -/
def name : FailureKind → String
  | any => "BaseException"
  | exception => "Exception"
  | value => "ValueError"
  | configuration => "ConfigurationError"
  | type => "TypeError"
  | lookup => "LookupError"
  | index => "IndexError"
  | key => "KeyError"
  | arithmetic => "ArithmeticError"
  | zeroDivision => "ZeroDivisionError"
  | overflow => "OverflowError"
  | missingPart => "AttributeError"
  | runtime => "RuntimeError"
  | notImplemented => "NotImplementedError"
  | assertion => "AssertionError"
  | verification => "VerificationError"
  | unexpectedSuccess => "UnexpectedSuccess"
  | derived name _ _ => name

/-- The kinds above a kind. -/
def above : FailureKind → List FailureKind
  | any => []
  | exception => [any]
  | value | type | lookup | arithmetic | missingPart | runtime | assertion => [exception, any]
  | configuration => [value, exception, any]
  | index | key => [lookup, exception, any]
  | zeroDivision | overflow => [arithmetic, exception, any]
  | notImplemented => [runtime, exception, any]
  | verification | unexpectedSuccess => [assertion, exception, any]
  | derived _ first second => first :: first.above ++ second :: second.above

/-- Whether a kind is another one or below it. -/
def isA (kind expected : FailureKind) : Bool := kind = expected || expected ∈ kind.above

/-- The kinds that are no primitive's own. -/
def all : List FailureKind :=
  [any, exception, value, configuration, type, lookup, index, key, arithmetic, zeroDivision,
    overflow, missingPart, runtime, notImplemented, assertion, verification, unexpectedSuccess]

def ofName? (name : String) : Option FailureKind := all.find? (·.name = name)

end FailureKind

inductive Axis where
  | batch
  | channels
  | depth
  | height
  | width
deriving DecidableEq, Repr

namespace Axis

def all : List Axis := [batch, channels, depth, height, width]

def name : Axis → String
  | batch => "batch"
  | channels => "channels"
  | depth => "depth"
  | height => "height"
  | width => "width"

end Axis

inductive Role where
  | src
  | dst
  | mean
  | variance
  | scale
  | shift
  | diffDst
  | diffSrc
  | diffScale
  | diffShift
deriving DecidableEq, Repr

namespace Role

def name : Role → String
  | src => "src"
  | dst => "dst"
  | mean => "mean"
  | variance => "variance"
  | scale => "scale"
  | shift => "shift"
  | diffDst => "diff_dst"
  | diffSrc => "diff_src"
  | diffScale => "diff_scale"
  | diffShift => "diff_shift"

def all : List Role :=
  [src, dst, mean, variance, scale, shift, diffDst, diffSrc, diffScale, diffShift]

def ofName? (name : String) : Option Role := all.find? (·.name = name)

end Role

/-- A setting that is not accepted. -/
inductive Fault where
  /-- An extent that is not a natural number. -/
  | extent (axis : Axis) (value : Literal)
  /-- A list of extents of a length that no shape has. -/
  | extentCount (count : Nat)
  /-- A memory order without a meaning. -/
  | memoryOrder (name : String)
  /-- A block without elements. -/
  | blockSize
  /-- Fewer channels in memory than in the shape. -/
  | paddedChannels (padded channels : Int)
  /-- Channels in memory that do not fill their blocks. -/
  | partialBlock (padded block : Int)
  /-- A memory format without a meaning. -/
  | memoryFormat (name : String)
  /-- A format without a depth for a shape with one. -/
  | formatDepth (name : String) (depth : Nat)
  /-- A format without spatial dimensions for a shape with some. -/
  | formatSpatial (name : String)
  /-- An array of a rank that no logical tensor has. -/
  | arrayRank (rank : Nat)
  /-- An array of another shape than the layout's. -/
  | arrayShape (found expected : List Nat)
  /-- A buffer shorter than its layout. -/
  | bufferSize (found expected : Nat)
  /-- A precision without a meaning. -/
  | precision (value : Literal)
  /-- A negative epsilon. -/
  | negativeEpsilon
  /-- A thread count below one. -/
  | threadCount
  /-- A weights buffer that does not hold a scale and a shift for each channel. -/
  | weightsSize (found : Nat) (expected : Int)
  /-- A buffer that the run needs and does not have. -/
  | missing (role : Role)
  /-- A layout for another shape than the run's. -/
  | layoutShape (role : Role) (found expected : List Nat)
  /-- An activation buffer shorter than its layout. -/
  | activationSize (role : Role) (found expected : Nat)
  /-- An activation buffer of another element type than the precision's. -/
  | activationType (role : Role) (found expected : ElementType) (precision : Precision)
  /-- A buffer with fewer values than channels. -/
  | channelSize (role : Role) (found channels : Nat)
  /-- A buffer of channel values that are not floating point numbers. -/
  | channelType (role : Role)
  /-- A backward run in a precision that has none. -/
  | backwardPrecision (precision : Precision)
  /-- A backward run without a mode. -/
  | backwardMode

namespace Fault

def extents (dims : List Nat) : String := tupleText (dims.map Int.ofNat)

def message : Fault → String
  | extent axis value => s!"{axis.name} must be a non-negative integer, got {value.render}"
  | extentCount count => s!"Expected 2, 4 or 5 logical dims, got {count}"
  | memoryOrder name => s!"Unknown layout kind '{name}'"
  | blockSize => "block size must be positive"
  | paddedChannels padded channels =>
    s!"padded_channels ({padded}) is smaller than channels ({channels})"
  | partialBlock padded block =>
    s!"padded_channels ({padded}) must be a multiple of the block size ({block})"
  | memoryFormat name => s!"Unsupported memory format '{name}'"
  | formatDepth name depth => s!"Format '{name}' cannot describe depth {depth}"
  | formatSpatial name => s!"Format '{name}' has no spatial dimensions"
  | arrayRank rank => s!"Expected 2, 4 or 5 dims, got {rank}"
  | arrayShape found expected =>
    s!"Array of shape {extents found} does not match layout shape {extents expected}"
  | bufferSize found expected => s!"Buffer holds {found} elements, layout needs {expected}"
  | precision value =>
    s!"Unsupported precision {value.render}; expected one of " ++
      ", ".intercalate (Precision.all.map (·.name))
  | negativeEpsilon => "epsilon must be non-negative"
  | threadCount => "num_threads must be positive"
  | weightsSize found expected => s!"Weights buffer holds {found} values, expected {expected}"
  | missing role => s!"'{role.name}' buffer is required for this configuration"
  | layoutShape role found expected =>
    s!"'{role.name}' layout describes {extents found}, " ++
      s!"configuration expects {extents expected}"
  | activationSize role found expected =>
    s!"'{role.name}' holds {found} elements but its layout needs {expected}"
  | activationType role found expected stored =>
    s!"'{role.name}' has dtype {found.name}, expected {expected.name} for {stored.name}"
  | channelSize role found channels =>
    s!"'{role.name}' holds {found} values, expected one per channel ({channels})"
  | channelType role => s!"'{role.name}' must be a floating point array"
  | backwardPrecision found =>
    s!"Backward verification supports f32 only, got {found.name}"
  | backwardMode => "Backward verification needs a backward_mode"

/-- The whole numbers in the message. -/
def integers : Fault → List Int
  | extent _ value | precision value => value.integers
  | extentCount count | arrayRank count => [count]
  | paddedChannels padded channels => [padded, channels]
  | partialBlock padded block => [padded, block]
  | formatDepth _ depth => [depth]
  | arrayShape found expected | layoutShape _ found expected => (found ++ expected).map Int.ofNat
  | bufferSize found expected | activationSize _ found expected | channelSize _ found expected =>
    [found, expected]
  | weightsSize found expected => [found, expected]
  | _ => []

end Fault

/-- An operation that was called wrongly. -/
inductive Misuse where
  /-- An index outside of a buffer. -/
  | indexOutside
  /-- Two lists of different lengths, neither of them a single number. -/
  | lengthMismatch
  /-- An array whose elements do not fill its shape. -/
  | sizeMismatch
  /-- A division by a count of zero. -/
  | divisionByZero
  /-- An integer too large for the type that it is stored in. -/
  | integerTooLarge
  /-- An integer with more digits than a text has room for. -/
  | integerTooLong
  /-- An array with more bytes than can be counted. -/
  | arrayTooLarge
  /-- An infinite extent. -/
  | infiniteInteger
  /-- A number that is no integer, not even after dropping its fraction. -/
  | notANumber
  /-- A text that writes no number. -/
  | malformedNumber
  /-- A value that is neither a number nor a text. -/
  | notConvertible
  /-- A count of extents that no shape is made from. -/
  | extentArguments
  /-- Coordinates other than the four lists of a channel. -/
  | coordinateLists
  /-- A pool of fewer than one thread. -/
  | emptyPool
  /-- A name that no element type has. -/
  | unknownElementType
  /-- An element type without integer limits. -/
  | notAnIntegerType
  /-- A scale without a shift. -/
  | scaleWithoutShift
  /-- A report without a limit. -/
  | unlimitedReport
  /-- A write into a buffer that does not exist. -/
  | absentBuffer
  /-- A buffer that runs of this direction do not have. -/
  | foreignBuffer
  /-- A precision that is none. -/
  | unknownPrecision
  /-- A propagation kind that is none. -/
  | unknownPropagation
deriving DecidableEq, Repr

def Misuse.kind : Misuse → FailureKind
  | indexOutside => .index
  | lengthMismatch | sizeMismatch | integerTooLong | arrayTooLarge | notANumber | malformedNumber
  | coordinateLists | emptyPool | notAnIntegerType => .value
  | divisionByZero => .zeroDivision
  | integerTooLarge | infiniteInteger => .overflow
  | notConvertible | extentArguments | unknownElementType | scaleWithoutShift | unlimitedReport
  | absentBuffer => .type
  | foreignBuffer | unknownPrecision | unknownPropagation => .missingPart

/-- Why an operation gave no result. -/
inductive Failure where
  | configuration (fault : Fault)
  | verification (report : Report)
  | unexpectedSuccess (expected : FailureKind) (description : String) (cases : Nat)
  | misuse (cause : Misuse)
  | raised (kind : FailureKind) (message : String)

namespace Failure

def kind : Failure → FailureKind
  | configuration _ => .configuration
  | verification _ => .verification
  | unexpectedSuccess .. => .unexpectedSuccess
  | misuse cause => cause.kind
  | raised kind _ => kind

/-- The message of a failure. A misuse has none of its own. -/
def message? : Failure → Option String
  | configuration fault => some fault.message
  | verification report => some report.message
  | unexpectedSuccess expected description cases =>
    some s!"expected {expected.name} for {description}, but all {cases} case(s) ran"
  | misuse _ => none
  | raised _ message => some message

end Failure

def misuse {α : Type} (cause : Misuse) : Except Failure α := .error (.misuse cause)

/-- Refuses a setting. Where the message would have to write a number that is too long, there
is no message, and it is a misuse. -/
def refuse {α : Type} (fault : Fault) : Except Failure α :=
  if fault.integers.all Integer.isWritable then .error (.configuration fault)
  else misuse .integerTooLong

/-- Fails with a fault unless a condition holds. -/
def require (condition : Prop) [Decidable condition] (fault : Fault) : Except Failure Unit :=
  if condition then .ok () else refuse fault

end BatchNorm
