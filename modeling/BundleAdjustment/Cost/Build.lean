import BundleAdjustment.Camera.Lookup
import BundleAdjustment.Cost.Basic
import BundleAdjustment.Covariance
import BundleAdjustment.Decimal.Rounded
import BundleAdjustment.Pose.Fields

/-! # Building costs

Costs from measured data. Building checks sizes and covariances, shares kernels between costs, and records which
cost was made for which camera model.
-/

namespace BundleAdjustment

abbrev Build := Stateful KernelTable

namespace Build

def intern (k : Kernel) : Build KernelTable.Handle := modifyGet fun t => t.intern k

def measurement (m : Measurement Float) : Build (Cost Float) := return .measurement m (← intern m.kernel)

/-- A pose that a cost needs; costs may be asked for without one. -/
def need (pose : Option (Rigid Float)) : Build (Rigid Float) := pose.elim (throw .noSuchMember) pure

def observation (point2D : Datum) : Build (Vec2 Float) := Stateful.lift (Vec2.ofDatum "point2D" point2D)

def reprojection (point2D : Datum) (camera : CameraModel) : Build (Cost Float) := do
  measurement (.reprojection camera (← observation point2D))

def rigReprojection (point2D : Datum) (camera : CameraModel) : Build (Cost Float) := do
  measurement (.rigReprojection camera (← observation point2D))

def fixedPointReprojection (point2D point3D : Datum) (camera : CameraModel) : Build (Cost Float) := do
  let observed ← observation point2D
  measurement (.fixedPointReprojection camera observed (← Stateful.lift (Vec3.ofDatum "point3D" point3D)))

/-- The kernel is entered before the pose is looked at. -/
def fixedPoseReprojection (pose : Option (Rigid Float)) (point2D : Datum) (camera : CameraModel) :
    Build (Cost Float) := do
  let observed ← observation point2D
  let _ ← intern (.reprojection camera)
  measurement (.fixedPoseReprojection camera (← need pose) observed)

def fixedRigReprojection (cameraFromRig : Option (Rigid Float)) (point2D : Datum) (camera : CameraModel) :
    Build (Cost Float) := do
  let observed ← observation point2D
  let _ ← intern (.rigReprojection camera)
  measurement (.fixedRigReprojection camera (← need cameraFromRig) observed)

def posePrior (prior : Option (Rigid Float)) (covariance : Datum) : Build (Cost Float) := do
  let S ← Stateful.logged (Covariance.whitening 6 covariance)
  measurement (.posePrior (← need prior) S)

def relativePosePrior (prior : Option (Rigid Float)) (covariance : Datum) : Build (Cost Float) := do
  let S ← Stateful.logged (Covariance.whitening 6 covariance)
  measurement (.relativePosePrior (← need prior) S)

def positionPrior (position covariance : Datum) : Build (Cost Float) := do
  let p ← Stateful.lift (Vec3.ofDatum "position_in_world_prior" position)
  measurement (.positionPrior p (← Stateful.logged (Covariance.whitening 3 covariance)))

def alignment (point covariance : Datum) : Build (Cost Float) := do
  let p ← Stateful.lift (Vec3.ofDatum "point_in_b_prior" point)
  measurement (.alignment p (← Stateful.logged (Covariance.whitening 3 covariance)))

def sampson (x1 x2 : Datum) : Build (Cost Float) := do
  let x₁ ← Stateful.lift (Vec2.ofDatum "x1" x1)
  measurement (.sampson x₁ (← Stateful.lift (Vec2.ofDatum "x2" x2)))

/-- A number, or a numeral; neither lists nor missing values. -/
def number : Datum → Except Fault Float
  | .null | .list _ => throw .wrongKind
  | d => NumArray.entryOf d

def linear (scale : Datum) : Build (Cost Float) := return .linear (← Stateful.lift (number scale))

def conditioned (wrapped : Cost Float) (conditioners : List (Option (Cost Float))) : Build (Cost Float) := do
  Stateful.lift (wrapped.function.checkConditioners (Cost.functions conditioners))
  return .conditioned wrapped conditioners

def dispatchLog (label : String) (camera : CameraModel) : Log :=
  ⟨.debug, .dispatch,
    s!"Creating {label} for camera model {camera.name} ({camera.numParams} params)"⟩

/-- A cost for the camera model of a key. The label names what is made in the record. -/
def forCamera (label : String) (key : Datum) (make : CameraModel → Build (Cost Float)) : Build (Cost Float) := do
  let camera ← Stateful.lift (CameraModel.ofKey key)
  Stateful.record (dispatchLog label camera)
  make camera

def noiseLog (name : String) (scale : Float) : Log :=
  ⟨.debug, .conditioning,
    s!"Conditioning {name} with scale " ++ Decimal.general 6 scale⟩

/-- A cost whose residuals are divided by a standard deviation, which is checked before the cost is made. -/
def noise (stddev : Float) (make : Build (Cost Float)) : Build (Cost Float) := do
  unless stddev.isFinite && 0 < stddev do throw (.stddevNotPositive stddev)
  let wrapped ← make
  let scale := 1 / stddev
  Stateful.record (noiseLog wrapped.name scale)
  conditioned wrapped (List.replicate wrapped.numResiduals (some (.linear scale)))

end Build

end BundleAdjustment
