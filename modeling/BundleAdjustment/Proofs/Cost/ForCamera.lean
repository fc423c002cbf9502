import BundleAdjustment.Proofs.Cost.Scaling
import BundleAdjustment.Proofs.Stateful

/-! # Costs for a camera model

A reprojection cost is made from a formula that leaves the camera model open, and from the model. What making it
returns, and what it leaves behind, is one equation: the model decides the kernel, the size of the last block and the
projection, the other arguments decide the rest.
-/

namespace BundleAdjustment

open Stateful

/-- The formulas of reprojection errors, in which the camera model is open. -/
inductive KernelFamily where
  | reprojection
  | fixedPointReprojection
  | rigReprojection
  deriving DecidableEq

namespace KernelFamily

def bind : KernelFamily → CameraModel → Kernel
  | reprojection => .reprojection
  | fixedPointReprojection => .fixedPointReprojection
  | rigReprojection => .rigReprojection

/-- Different formulas have different kernels, and so have different camera models. -/
theorem bind_eq_bind_iff {f f' : KernelFamily} {camera camera' : CameraModel} :
    f.bind camera = f'.bind camera' ↔ f = f' ∧ camera = camera' := by
  cases f <;> cases f' <;> simp [bind]

variable {α : Type} [Scalar α]

def point : KernelFamily → List (Block α) → Except Fault (Vec3 α)
  | reprojection, [rotation, translation, point] => Kernel.carry rotation translation point
  | fixedPointReprojection, [point, rotation, translation] => Kernel.carry rotation translation point
  | rigReprojection, [rotation, translation, rigRotation, rigTranslation, point] => do
    Kernel.carry rotation translation (← Kernel.carry rigRotation rigTranslation point).toList
  | _, _ => throw .wrongKind

/-- The formula, with the camera model as one of its arguments. -/
def error (f : KernelFamily) (camera : CameraModel) (observed : Block α) (scene : List (Block α))
    (intrinsics : Block α) : Except Fault (List α) := do
  Kernel.imageError camera observed intrinsics (← f.point scene)

/-- A bound kernel is the formula at its camera model. -/
theorem apply_bind (f : KernelFamily) (camera : CameraModel) (observed : Block α) (scene : List (Block α))
    (intrinsics : Block α) :
    (f.bind camera).apply (observed :: (scene ++ [intrinsics])) = f.error camera observed scene intrinsics := by
  cases f with
  | reprojection => rcases scene with _ | ⟨_, _ | ⟨_, _ | ⟨_, _ | ⟨_, _ | _⟩⟩⟩⟩ <;> rfl
  | fixedPointReprojection => rcases scene with _ | ⟨_, _ | ⟨_, _ | ⟨_, _ | ⟨_, _ | _⟩⟩⟩⟩ <;> rfl
  | rigReprojection =>
    rcases scene with _ | ⟨_, _ | ⟨_, _ | ⟨_, _ | ⟨_, _ | ⟨_, _ | ⟨_, _ | _⟩⟩⟩⟩⟩⟩
    case cons.cons.cons.cons.cons.nil => simp [bind, Kernel.apply, error, point]
    all_goals rfl

end KernelFamily

namespace Measurement

theorem kernel_map {α β : Type} (g : α → β) (m : Measurement α) : (m.map g).kernel = m.kernel := by
  cases m <;> rfl

variable {α : Type} {m : Measurement α} {f : KernelFamily} {camera : CameraModel}

theorem camera?_of_kernel_eq (h : m.kernel = f.bind camera) : m.camera? = some camera := by
  cases m <;> cases f <;> cases h <;> rfl

/-- The intrinsics are the last block, in the size that the camera model has. -/
theorem getLast?_blockSizes (h : m.camera? = some camera) : m.blockSizes.getLast? = some camera.numParams := by
  cases m <;> cases h <;> rfl

variable [Scalar α]

/-- Errors in pixels are not whitened, and the observation is the first of the constants. -/
theorem exists_captured_eq (h : m.camera? = some camera) :
    ∃ observed scene, m.captured = observed :: scene ∧ ∀ r, m.whiten r = r := by
  cases m <;> cases h <;> exact ⟨_, _, rfl, fun r => rfl⟩

/-- The residual is the formula at the camera model. The last block stands for the intrinsics, and what was captured
comes before the blocks. -/
theorem exists_residual_eq (h : m.kernel = f.bind camera) : ∃ observed scene, m.captured = observed :: scene ∧
    ∀ free intrinsics, m.residual (free ++ [intrinsics]) = f.error camera observed (scene ++ free) intrinsics := by
  obtain ⟨observed, scene, hcaptured, hwhiten⟩ := exists_captured_eq (camera?_of_kernel_eq h)
  refine ⟨observed, scene, hcaptured, fun free intrinsics => ?_⟩
  have happly := f.apply_bind camera observed (scene ++ free) intrinsics
  rw [residual, hcaptured, h, List.cons_append, ← List.append_assoc, happly]
  cases f.error camera observed (scene ++ free) intrinsics with
  | error fault => rfl
  | ok r => exact congrArg Except.ok (hwhiten r)

end Measurement

/-- A kernel that is in the table already leaves it as it is. -/
theorem KernelTable.intern_intern (t : KernelTable) (k : Kernel) : (t.intern k).2.intern k = t.intern k := by
  cases h : t.kernels.idxOf? k with
  | some i => simp [intern, h]
  | none =>
    have hlast : (t.kernels ++ [k]).idxOf? k = some t.kernels.length := by
      rw [List.idxOf?, List.findIdx?_append, ← List.idxOf?, h]
      simp
    simp [intern, h, hlast]

namespace Build

variable (s : KernelTable × List Log)

theorem outcome_intern (k : Kernel) :
    outcome (intern k) s = (.ok (s.1.intern k).1, (s.1.intern k).2, s.2) := rfl

theorem outcome_measurement (m : Measurement Float) : outcome (measurement m) s =
    (.ok (.measurement m (s.1.intern m.kernel).1), (s.1.intern m.kernel).2, s.2) := rfl

/-- A kernel that was entered before is found again. -/
theorem outcome_measurement_again (m : Measurement Float) (k : Kernel) (hk : m.kernel = k) :
    outcome (measurement m) ((s.1.intern k).2, s.2) =
      (.ok (.measurement m (s.1.intern k).1), (s.1.intern k).2, s.2) := by
  rw [outcome_measurement, hk, KernelTable.intern_intern]

theorem outcome_need (pose : Option (Rigid Float)) :
    outcome (need pose) s = (pose.elim (.error .noSuchMember) .ok, s) := by cases pose <;> rfl

/-- A key that stands for no camera model leaves nothing behind, not even a record. -/
theorem outcome_forCamera (label : String) (key : Datum) (make : CameraModel → Build (Cost Float)) :
    outcome (forCamera label key make) s =
      match CameraModel.ofKey key with
      | .error f => (.error f, s)
      | .ok camera => outcome (make camera) (s.1, s.2 ++ [dispatchLog label camera]) := by
  simp only [forCamera, outcome_bind, outcome_lift]
  cases CameraModel.ofKey key <;> rfl

theorem outcome_conditioned (wrapped : Cost Float) (conditioners : List (Option (Cost Float))) :
    outcome (conditioned wrapped conditioners) s =
      ((wrapped.function.checkConditioners (Cost.functions conditioners)).map fun _ =>
        .conditioned wrapped conditioners, s) := by
  simp only [conditioned, outcome_bind, outcome_lift]
  cases wrapped.function.checkConditioners (Cost.functions conditioners) <;> rfl

/-- The deviation is checked before anything is made. -/
theorem outcome_noise (stddev : Float) (make : Build (Cost Float)) :
    outcome (noise stddev make) s =
      if stddev.isFinite && 0 < stddev then
        match outcome make s with
        | (.ok wrapped, t, logs) =>
          (.ok (.conditioned wrapped (List.replicate wrapped.numResiduals (some (.linear (1 / stddev))))), t,
            logs ++ [noiseLog wrapped.name (1 / stddev)])
        | (.error f, s') => (.error f, s')
      else (.error (.stddevNotPositive stddev), s) := by
  split_ifs with h
  · rw [noise_eq h, outcome_bind]
    rcases outcome make s with ⟨_ | wrapped, t, logs⟩ <;> rfl
  · simp only [noise, h]
    rfl

end Build

/-- A cost for a camera model: its class, and the arguments besides the model. -/
inductive CameraCost where
  | reprojection (point2D : Datum)
  | fixedPoseReprojection (pose : Option (Rigid Float)) (point2D : Datum)
  | fixedPointReprojection (point2D point3D : Datum)
  | rigReprojection (point2D : Datum)
  | fixedRigReprojection (cameraFromRig : Option (Rigid Float)) (point2D : Datum)

namespace CameraCost

/-- Fixing a pose captures it, and leaves the formula as it is; fixing a point does not. -/
def family : CameraCost → KernelFamily
  | reprojection _ | fixedPoseReprojection .. => .reprojection
  | fixedPointReprojection .. => .fixedPointReprojection
  | rigReprojection _ | fixedRigReprojection .. => .rigReprojection

def build : CameraCost → CameraModel → Build (Cost Float)
  | reprojection point2D => Build.reprojection point2D
  | fixedPoseReprojection pose point2D => Build.fixedPoseReprojection pose point2D
  | fixedPointReprojection point2D point3D => Build.fixedPointReprojection point2D point3D
  | rigReprojection point2D => Build.rigReprojection point2D
  | fixedRigReprojection cameraFromRig point2D => Build.fixedRigReprojection cameraFromRig point2D

/-- What is read of the arguments before the kernel is entered, and what is looked at after that. The camera model has
no part in either. -/
def read : CameraCost → Except Fault (Except Fault (CameraModel → Measurement Float))
  | reprojection point2D =>
    (Vec2.ofDatum "point2D" point2D).map fun observed => .ok fun camera => .reprojection camera observed
  | fixedPoseReprojection pose point2D =>
    (Vec2.ofDatum "point2D" point2D).map fun observed =>
      pose.elim (.error .noSuchMember) fun T => .ok fun camera => .fixedPoseReprojection camera T observed
  | fixedPointReprojection point2D point3D => do
    let observed ← Vec2.ofDatum "point2D" point2D
    (Vec3.ofDatum "point3D" point3D).map fun X => .ok fun camera => .fixedPointReprojection camera observed X
  | rigReprojection point2D =>
    (Vec2.ofDatum "point2D" point2D).map fun observed => .ok fun camera => .rigReprojection camera observed
  | fixedRigReprojection cameraFromRig point2D =>
    (Vec2.ofDatum "point2D" point2D).map fun observed =>
      cameraFromRig.elim (.error .noSuchMember) fun T => .ok fun camera => .fixedRigReprojection camera T observed

variable {c : CameraCost} {measurement : CameraModel → Measurement Float}

theorem kernel_read (h : c.read = .ok (.ok measurement)) (camera : CameraModel) :
    (measurement camera).kernel = c.family.bind camera := by
  cases c with
  | reprojection point2D | rigReprojection point2D =>
    obtain ⟨observed, -, ⟨⟩⟩ := Outcome.map_eq_ok.mp h
    rfl
  | fixedPoseReprojection pose point2D | fixedRigReprojection pose point2D =>
    obtain ⟨observed, -, hpose⟩ := Outcome.map_eq_ok.mp h
    cases pose with
    | none => cases hpose
    | some T =>
      cases hpose
      rfl
  | fixedPointReprojection point2D point3D =>
    obtain ⟨observed, -, hpoint⟩ := Outcome.bind_eq_ok.mp h
    obtain ⟨X, -, ⟨⟩⟩ := Outcome.map_eq_ok.mp hpoint
    rfl

/-- Once the first arguments are read, the kernel is in the table, whether or not a cost comes of it. -/
theorem outcome_build (c : CameraCost) (camera : CameraModel) (s : KernelTable × List Log) :
    outcome (c.build camera) s =
      match c.read with
      | .error f => (.error f, s)
      | .ok measurement =>
        (measurement.map fun m => .measurement (m camera) (s.1.intern (c.family.bind camera)).1,
          (s.1.intern (c.family.bind camera)).2, s.2) := by
  cases c with
  | reprojection point2D | rigReprojection point2D =>
    simp only [build, read, Build.reprojection, Build.rigReprojection, Build.observation, outcome_bind, outcome_lift]
    cases Vec2.ofDatum "point2D" point2D <;> rfl
  | fixedPoseReprojection pose point2D | fixedRigReprojection pose point2D =>
    simp only [build, read, Build.fixedPoseReprojection, Build.fixedRigReprojection, Build.observation, outcome_bind,
      outcome_lift, Build.outcome_intern, Build.outcome_need]
    cases Vec2.ofDatum "point2D" point2D with
    | error f => rfl
    | ok observed =>
      cases pose with
      | none => rfl
      | some T => exact Build.outcome_measurement_again s _ _ rfl
  | fixedPointReprojection point2D point3D =>
    simp only [build, read, Build.fixedPointReprojection, Build.observation, outcome_bind, outcome_lift]
    cases Vec2.ofDatum "point2D" point2D with
    | error f => rfl
    | ok observed => cases Vec3.ofDatum "point3D" point3D <;> rfl

end CameraCost

/-- What is made for a camera model: a cost of some class, or one whose residuals are divided by a deviation. -/
structure CameraFactory where
  cost : CameraCost
  stddev : Option Float

namespace CameraFactory

def build (f : CameraFactory) (camera : CameraModel) : Build (Cost Float) :=
  match f.stddev with
  | none => f.cost.build camera
  | some stddev => Build.noise stddev (f.cost.build camera)

/-- The measurements that the arguments stand for, one for each camera model, if the arguments are accepted. -/
def measurement (f : CameraFactory) : Except Fault (CameraModel → Measurement Float) :=
  match f.stddev with
  | none => f.cost.read >>= id
  | some stddev =>
    if stddev.isFinite && 0 < stddev then f.cost.read >>= id else .error (.stddevNotPositive stddev)

def finish (f : CameraFactory) (c : Cost Float) : Cost Float :=
  match f.stddev with
  | none => c
  | some stddev => .conditioned c (List.replicate c.numResiduals (some (.linear (1 / stddev))))

variable (f : CameraFactory) {c c' : Cost Float}

theorem core_finish : (f.finish c).core = c.core := by
  cases h : f.stddev <;> simp [finish, h, Cost.core]

theorem function_finish_congr (h : c.function = c'.function) : (f.finish c).function = (f.finish c').function := by
  cases hs : f.stddev with
  | none => simpa only [finish, hs] using h
  | some stddev => simp only [finish, hs, Cost.function_conditioned_linear, h]

theorem blockSizes_finish : (f.finish c).blockSizes = c.blockSizes := by
  cases h : f.stddev with
  | none => simp only [finish, h]
  | some stddev =>
    simp only [finish, h, Cost.blockSizes, Cost.function_conditioned_linear]
    rfl

theorem kernel_measurement {measurement : CameraModel → Measurement Float} (h : f.measurement = .ok measurement)
    (camera : CameraModel) : (measurement camera).kernel = f.cost.family.bind camera := by
  have hread : f.cost.read >>= id = .ok measurement := by
    cases hs : f.stddev with
    | none => simpa only [CameraFactory.measurement, hs] using h
    | some stddev =>
      simp only [CameraFactory.measurement, hs] at h
      split_ifs at h
      exact h
  obtain ⟨x, hx, rfl⟩ := Outcome.bind_eq_ok.mp hread
  exact CameraCost.kernel_read hx camera

/-- Whether a cost is made, and which one, does not depend on the table but for the handle of its kernel. -/
theorem outcome_build_fst (camera : CameraModel) (s : KernelTable × List Log) :
    (outcome (f.build camera) s).1 = f.measurement.map fun m =>
      f.finish (.measurement (m camera) (s.1.intern (f.cost.family.bind camera)).1) := by
  have hcost : (outcome (f.cost.build camera) s).1 = (f.cost.read >>= id).map fun m =>
      .measurement (m camera) (s.1.intern (f.cost.family.bind camera)).1 := by
    rw [CameraCost.outcome_build]
    cases f.cost.read <;> rfl
  cases hs : f.stddev with
  | none => simpa only [build, measurement, finish, hs, id] using hcost
  | some stddev =>
    simp only [build, measurement, finish, hs, Build.outcome_noise]
    split_ifs
    · rcases hx : outcome (f.cost.build camera) s with ⟨made, t, logs⟩
      obtain rfl : made = _ := by simpa only [hx] using hcost
      cases f.cost.read >>= id <;> rfl
    · rfl

end CameraFactory

end BundleAdjustment
