import BundleAdjustment.Datum

/-! # Faults

Everything that can go wrong, by cause. A cause belongs to a family, and those that the library diagnoses itself have
a message.
-/

namespace BundleAdjustment

/-- What a record field fails at when it is read. -/
inductive FieldFault where
  | missing
  | notBool
  | unreadableBool
  | notInt
  | unreadableInt
  | fractionalInt
  | oversizedInt
  | notFinite
  | notFloat
  | unreadableFloat
  | notText
  | notRecord
  | notList
  | notAmong
  | notInstance
  | notModel
  | frozen
  /-- The field was read, but its value is refused, for the reason stated if there is one. -/
  | refused (reason : Option String)

/-- A fault of one field. The path names the field, then positions inside it. -/
structure Issue where
  path : List String
  fault : FieldFault

inductive Fault where
  /-- A text that is no number, or lists that form no array. -/
  | unreadable
  /-- A value of a kind that the operation does not take. -/
  | wrongKind
  | outOfRange
  | notFound
  | noSuchMember
  /-- An integer beyond the range of doubles. -/
  | tooLarge
  /-- A decomposition met entries that are not finite. -/
  | noDecomposition
  /-- The general camera model has no projection. -/
  | noProjection
  | vectorSize (name : String) (expected : Int) (actual : Nat)
  | poseMatrixShape (shape : List Nat)
  | scaleNotPositive (scale : Float)
  | covarianceNotMatrix (shape : List Nat)
  | covarianceShape (expected : Int) (shape : List Nat)
  | covarianceNotFinite
  | covarianceNotSymmetric
  | covarianceNotPositive
  | unknownCameraId (key : Datum)
  | unknownCameraName (name : String) (known : List String)
  | intrinsicsCount (camera : String) (expected actual : Nat)
  | blockCount (cost : String) (expected actual : Nat)
  | conditionerCount (expected actual : Nat)
  | conditionerNotScalar (index : Nat)
  | stddevNotPositive (stddev : Float)
  | negativeIterations (value : Datum)
  | lossScaleNotPositive (value : Datum)
  | tooFewThreads (value : Datum)
  | entryBlockCount (description : String) (expected actual : Nat)
  | nameTaken (name : String)
  | notContiguous (name : String)
  | unknownName (name : String)
  | quaternionLength (actual : Nat)
  /-- The arrays of a residual block are not of the sizes that its cost has. -/
  | blockSizes
  | invalid (issues : List Issue)
  deriving Inhabited

/-- The families of faults that a caller can tell apart. -/
inductive Fault.Family where
  | value
  | kind
  | index
  | key
  | member
  | overflow
  | decomposition
  | unimplemented
  | validation
  deriving DecidableEq

namespace Fault

/-- A shape in parentheses, one dimension with a trailing comma. -/
def shapeText : List Nat → String
  | [n] => s!"({n},)"
  | shape => "(" ++ ", ".intercalate (shape.map toString) ++ ")"

def family : Fault → Family
  | wrongKind => .kind
  | outOfRange => .index
  | notFound | unknownName _ => .key
  | noSuchMember => .member
  | tooLarge => .overflow
  | noDecomposition => .decomposition
  | noProjection => .unimplemented
  | invalid _ => .validation
  | _ => .value

def message? : Fault → Option String
  | unreadable | wrongKind | outOfRange | notFound | noSuchMember | tooLarge | noDecomposition | blockSizes
  | invalid _ => none
  | noProjection => some ""
  | vectorSize name expected actual => some s!"{name} must have {expected} elements, got {actual}"
  | poseMatrixShape shape => some ("Matrix must be 3x4 or 4x4, got " ++ shapeText shape)
  | scaleNotPositive scale => some ("scale must be positive, got " ++ Decimal.shortest scale)
  | covarianceNotMatrix shape => some ("Covariance must be a matrix, got shape " ++ shapeText shape)
  | covarianceShape n shape => some (s!"Covariance must have shape ({n}, {n}), got " ++ shapeText shape)
  | covarianceNotFinite => some "Covariance contains NaN or Inf entries"
  | covarianceNotSymmetric => some "Covariance must be symmetric"
  | covarianceNotPositive => some "Covariance is not positive-definite:"
  | unknownCameraId key => some ("Unknown camera model id: " ++ key.literal)
  | unknownCameraName name known =>
    some ("Unknown camera model name: " ++ Text.quoted name ++ ". Valid: " ++ ", ".intercalate known)
  | intrinsicsCount camera expected actual => some s!"{camera} expects {expected} params, got {actual}"
  | blockCount cost expected actual => some s!"{cost} expects {expected} parameter blocks, got {actual}"
  | conditionerCount expected actual => some s!"Expected {expected} conditioners, got {actual}"
  | conditionerNotScalar i => some s!"Conditioner {i} must have 1 residual and one block of size 1"
  | stddevNotPositive stddev => some ("stddev must be positive, got " ++ Decimal.shortest stddev)
  | negativeIterations value => some ("max_iterations must be non-negative, got " ++ value.plain)
  | lossScaleNotPositive value => some ("robust_loss_param must be positive, got " ++ value.plain)
  | tooFewThreads value => some ("num_threads must be at least 1, got " ++ value.plain)
  | entryBlockCount description expected actual =>
    some s!"{description}: cost expects {expected} parameter blocks, got {actual}"
  | nameTaken name => some s!"Parameter block '{name}' already exists"
  | notContiguous name => some s!"Parameter block '{name}' must be a contiguous float64 array"
  | unknownName name => some s!"Parameter block '{name}' not found"
  | quaternionLength actual => some s!"Quaternion must have 4 elements, got {actual}"

end Fault

end BundleAdjustment
