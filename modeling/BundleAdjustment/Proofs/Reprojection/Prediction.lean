import BundleAdjustment.Camera.Points
import BundleAdjustment.Pose.Transform
import BundleAdjustment.Proofs.Pose.MatrixAction
import BundleAdjustment.Proofs.Reprojection.Residual

/-! # Predicted images

The points of a list are moved to the frame of a camera by one rotation matrix, and then projected together. Each image
that this predicts, less the observation, is what the reprojection errors of the point are, although they rotate it by
cross products and on its own.
-/

namespace BundleAdjustment

def Datum.ofRows (rows : List (List Float)) : Datum := list (rows.map fun r => list (r.map float))

namespace NumArray

theorem lengthsOfEach_eq_mapM (items : List Datum) : lengthsOfEach items = items.mapM lengthsOf := by
  induction items with
  | nil => rfl
  | cons d items ih =>
    rw [lengthsOfEach, List.mapM_cons, ih]

/-- Lists of one shape, side by side, form an array. Where there are none, nothing is known of their shape. -/
theorem lengthsOf_list {items : List Datum} {shape : List ℕ} (h : ∀ d ∈ items, lengthsOf d = .ok shape) :
    lengthsOf (.list items) = .ok (if items = [] then [0] else items.length :: shape) := by
  rw [lengthsOf, lengthsOfEach_eq_mapM, Outcome.mapM_eq_ok h]
  cases items with
  | nil => rfl
  | cons d items => simp [bind, Except.bind, pure, Except.pure]

theorem leavesOf_eq_flatMap (items : List Datum) : leavesOf items = items.flatMap leaves := by
  induction items with
  | nil => rfl
  | cons d items ih => rw [leavesOf, ih, List.flatMap_cons]

theorem leaves_ofRows (rows : List (List Float)) : leaves (.ofRows rows) = rows.flatten.map Datum.float := by
  have hrow (r : List Float) : leaves (.list (r.map Datum.float)) = r.map Datum.float := by
    rw [leaves, leavesOf_eq_flatMap, List.flatMap_map, List.map_eq_flatMap]
    rfl
  rw [Datum.ofRows, leaves, leavesOf_eq_flatMap, List.flatMap_map]
  simp only [hrow]
  rw [List.map_flatten, List.flatMap_def]

theorem lengthsOf_floats (r : List Float) : lengthsOf (.list (r.map Datum.float)) = .ok [r.length] := by
  have hleaf : ∀ d ∈ r.map Datum.float, lengthsOf d = .ok [] := by
    simp only [List.mem_map]
    rintro _ ⟨x, -, rfl⟩
    rfl
  rw [lengthsOf_list hleaf]
  cases r <;> simp

theorem shapeOf_ofRows {width : ℕ} {rows : List (List Float)} (h : ∀ r ∈ rows, r.length = width) :
    ∃ shape, shapeOf (.ofRows rows) = .ok shape := by
  have hrow : ∀ d ∈ rows.map fun r => Datum.list (r.map Datum.float), lengthsOf d = .ok [width] := by
    simp only [List.mem_map]
    rintro _ ⟨r, hr, rfl⟩
    rw [lengthsOf_floats, h r hr]
  rw [shapeOf, Datum.ofRows, lengthsOf_list hrow]
  split <;> exact ⟨_, rfl⟩

/-- Rows of one width are read as they are. -/
theorem ofDatum_ofRows {width : ℕ} {rows : List (List Float)} (h : ∀ r ∈ rows, r.length = width) :
    ∃ shape, ofDatum (.ofRows rows) = .ok ⟨shape, rows.flatten⟩ := by
  obtain ⟨shape, hshape⟩ := shapeOf_ofRows h
  have hentries : (rows.flatten.map Datum.float).mapM entryOf = .ok (rows.flatten.map id) := by
    rw [List.mapM_map]
    exact Outcome.mapM_eq_ok fun _ _ => rfl
  refine ⟨shape, ?_⟩
  rw [ofDatum, hshape, leaves_ofRows, hentries, List.map_id]
  rfl

end NumArray

theorem Vec3.triples?_flatten {α : Type} (points : List (Vec3 α)) :
    triples? (points.map toList).flatten = some points := by
  induction points with
  | nil => rfl
  | cons p points ih => simp [toList, triples?, ih]

section Rows

variable (points : List (Vec3 Float))

theorem ofDatum_points : ∃ shape, NumArray.ofDatum (.ofRows (points.map Vec3.toList)) =
    .ok ⟨shape, (points.map Vec3.toList).flatten⟩ := by
  have hwidth : ∀ r ∈ points.map Vec3.toList, r.length = 3 := by
    simp [Vec3.toList]
  exact NumArray.ofDatum_ofRows hwidth

theorem Transform.applyRows_ofRows (T : Transform) :
    T.applyRows (.ofRows (points.map Vec3.toList)) = .ok (T.applyAll points) := by
  obtain ⟨shape, h⟩ := ofDatum_points points
  simp only [applyRows, h, bind, Except.bind, Vec3.triples?_flatten]
  rfl

theorem CameraModel.pointsOf_ofRows : pointsOf (.ofRows (points.map Vec3.toList)) = .ok points := by
  obtain ⟨shape, h⟩ := ofDatum_points points
  have hnull : (NumArray.leaves (.ofRows (points.map Vec3.toList))).any Datum.isNull = false := by
    simp [NumArray.leaves_ofRows, Datum.isNull]
  simp only [pointsOf, h, hnull, bind, Except.bind, Vec3.triples?_flatten]
  rfl

theorem CameraModel.projectPoints_ofRows {camera : CameraModel} {params : NumArray}
    (hparams : params.shape = [camera.numParams]) :
    camera.projectPoints params (.ofRows (points.map Vec3.toList)) =
      .ok ((camera.projectAll (params.entries.map Flushed.mk) (points.map fun p => p.map Flushed.mk)).map
        fun uv => uv.map Flushed.value) := by
  simp only [projectPoints, hparams, pointsOf_ofRows, ne_eq, not_true_eq_false, if_false]
  rfl

end Rows

section Images

variable {α : Type} [ExactScalar α] {camera : CameraModel} {k : Block α}

theorem CameraModel.projectAll_applyAll (T : Rigid α) (points : List (Vec3 α)) :
    camera.projectAll k (T.applyAll points) = points.map fun X => camera.project k (T.apply X) := by
  rw [projectAll, Rigid.applyAll_eq_map, List.map_map]
  rfl

theorem Vec2.toList_sub_eq_zero_iff {v w : Vec2 α} : (v - w).toList = [0, 0] ↔ w = v := by
  have hsub : (v - w).toList = [v.x - w.x, v.y - w.y] := rfl
  simp [hsub, Vec2.ext_iff, sub_eq_zero, eq_comm]

end Images

namespace Measurement

/-- What a camera predicts for points that a pose moves is one image for each of them. Whether the reprojection error
varies the pose and the point, or holds one of them fixed, it is the predicted image less the observation, so that it is
zero for the image itself and for no other observation. The rotation need not have length one. -/
theorem residual_eq_predicted_sub_observed (camera : CameraModel) :
    (∀ (params : NumArray) (T : Rigid Float) (points : List (Vec3 Float)), params.shape = [camera.numParams] →
      ∃ moved images, (Transform.rigid T).applyRows (.ofRows (points.map Vec3.toList)) = .ok moved ∧
        camera.projectPoints params (.ofRows (moved.map Vec3.toList)) = .ok images ∧ images.length = points.length ∧
        moved = T.applyAll points ∧
        images = (camera.projectAll (params.entries.map Flushed.mk) (moved.map fun p => p.map Flushed.mk)).map
          fun uv => uv.map Flushed.value) ∧
    ∀ (k : Block ℝ) (T : Rigid ℝ) (points : List (Vec3 ℝ)) (observed : Vec2 ℝ), k.length = camera.numParams →
      (camera.projectAll k (T.applyAll points)).length = points.length ∧
        ∀ (i : ℕ) (hi : i < points.length), ∃ image, (camera.projectAll k (T.applyAll points))[i]? = some image ∧
          ∀ r ∈ [(reprojection camera observed).residual (T.blocks ++ [points[i].toList, k]),
              (fixedPoseReprojection camera T observed).residual [points[i].toList, k],
              (fixedPointReprojection camera observed points[i]).residual (T.blocks ++ [k])],
            r = .ok (image - observed).toList ∧ (r = .ok [0, 0] ↔ observed = image) := by
  refine ⟨fun params T points hparams => ?_, fun k T points observed hk => ⟨?_, fun i hi => ?_⟩⟩
  · refine ⟨_, _, Transform.applyRows_ofRows points _, CameraModel.projectPoints_ofRows _ hparams, ?_, rfl, rfl⟩
    simp [CameraModel.projectAll, Transform.applyAll, Rigid.applyAll]
  · rw [CameraModel.projectAll_applyAll, List.length_map]
  · let image := camera.project k (T.apply points[i])
    -- All three residuals are the same difference, so that one fact serves for each.
    have hzero {r : Except Fault (Block ℝ)} (hr : r = .ok (image - observed).toList) :
        r = .ok (image - observed).toList ∧ (r = .ok [0, 0] ↔ observed = image) :=
      ⟨hr, by rw [hr, Except.ok.injEq, Vec2.toList_sub_eq_zero_iff]⟩
    refine ⟨image, ?_, ?_⟩
    · rw [CameraModel.projectAll_applyAll, List.getElem?_map, List.getElem?_eq_getElem hi, Option.map_some]
    · rw [List.forall_mem_cons, List.forall_mem_cons, List.forall_mem_singleton]
      exact ⟨hzero (residual_reprojection observed _ hk T), hzero (residual_fixedPoseReprojection observed _ hk T),
        hzero (residual_fixedPointReprojection observed _ hk T)⟩

/-- A turn by a quaternion that is not of length one, and a step forwards. -/
def longTurn : Rigid ℝ := ⟨⟨1, 0, 0, 1⟩, ⟨0, 0, 1⟩⟩

/-- Two points that the turn brings in front of a pinhole camera. -/
theorem projectAll_longTurn :
    CameraModel.pinhole.projectAll [300, 300, 50, 50] (longTurn.applyAll [⟨0, 1, 0⟩, ⟨1, 1, 0⟩]) =
      [⟨50, -50⟩, ⟨150, -50⟩] := by
  have hmoved (x : ℝ) : longTurn.apply ⟨x, 1, 0⟩ = ⟨x, -1, 3⟩ := by
    ext <;> norm_num [longTurn, Rigid.apply, Rigid.applyBy, Quat.rotate_eq]
  have hseen (x : ℝ) : CameraModel.pinhole.project [300, 300, 50, 50] ⟨x, -1, 3⟩ = ⟨300 * (x / 3) + 50, -50⟩ := by
    ext <;> norm_num [CameraModel.project, CameraModel.toPixels, CameraModel.hasSingleFocal, CameraModel.distort,
      perspective, Block.entry]
  norm_num [CameraModel.projectAll_applyAll, hmoved, hseen]

/-- The second of these points is observed where the camera sees it. -/
theorem residual_eq_predicted_sub_observed_pinhole :
    (∃ moved images, (Transform.rigid ⟨⟨1, 0, 0, 1⟩, ⟨0, 0, 1⟩⟩).applyRows (.ofRows [[0, 1, 0], [1, 1, 0]]) =
        .ok moved ∧
      CameraModel.pinhole.projectPoints ⟨[4], [300, 300, 50, 50]⟩ (.ofRows (moved.map Vec3.toList)) = .ok images ∧
      images.length = 2) ∧
    (reprojection .pinhole ⟨150, -50⟩).residual (longTurn.blocks ++ [[1, 1, 0], [300, 300, 50, 50]]) = .ok [0, 0] ∧
    (fixedPoseReprojection .pinhole longTurn ⟨150, -50⟩).residual [[1, 1, 0], [300, 300, 50, 50]] = .ok [0, 0] ∧
    (fixedPointReprojection .pinhole ⟨150, -50⟩ ⟨1, 1, 0⟩).residual (longTurn.blocks ++ [[300, 300, 50, 50]]) =
      .ok [0, 0] := by
  obtain ⟨hrows, hexact⟩ := residual_eq_predicted_sub_observed .pinhole
  obtain ⟨moved, images, hmoved, himages, hlength, -⟩ :=
    hrows ⟨[4], [300, 300, 50, 50]⟩ ⟨⟨1, 0, 0, 1⟩, ⟨0, 0, 1⟩⟩ [⟨0, 1, 0⟩, ⟨1, 1, 0⟩] rfl
  obtain ⟨-, hpoints⟩ := hexact [300, 300, 50, 50] longTurn [⟨0, 1, 0⟩, ⟨1, 1, 0⟩] ⟨150, -50⟩ rfl
  obtain ⟨image, himage, hresidual⟩ := hpoints 1 (Nat.lt_succ_self 1)
  rw [projectAll_longTurn] at himage
  obtain rfl : ⟨150, -50⟩ = image := Option.some.inj himage
  rw [List.forall_mem_cons, List.forall_mem_cons, List.forall_mem_singleton] at hresidual
  obtain ⟨hfree, hpose, hpoint⟩ := hresidual
  exact ⟨⟨moved, images, hmoved, himages, hlength⟩, hfree.2.mpr rfl, hpose.2.mpr rfl, hpoint.2.mpr rfl⟩

end Measurement

end BundleAdjustment
