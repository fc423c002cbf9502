import BundleAdjustment.Proofs.Prior.PoseError
import BundleAdjustment.Proofs.Rotation.Naturality

/-! # Jacobians of pose priors

The Jacobians of a prior on a pose, as the slopes of the whitened error along the axes of the rotation and of the
translation.
-/

namespace BundleAdjustment

section Columns

variable {α δ : Type} [Scalar α]

theorem rowsOfColumns_eq_iff (height : ℕ) (l : List δ) (f g : δ → List α) :
    rowsOfColumns height (l.map f) = rowsOfColumns height (l.map g) ↔
      ∀ d ∈ l, ∀ i < height, (f d).getD i 0 = (g d).getD i 0 := by
  simp only [rowsOfColumns, List.map_map, List.map_inj_left, List.mem_range, Function.comp_apply]
  exact ⟨fun h d hd i hi => h i hi d hd, fun h i hi d hd => h d hd i hi⟩

theorem eq_of_getD_eq {height : ℕ} {v w : List α} (hv : v.length = height) (hw : w.length = height)
    (h : ∀ i < height, v.getD i 0 = w.getD i 0) : v = w := by
  refine List.ext_getElem (hv.trans hw.symm) fun i hi hi' => ?_
  have hget := h i (hv ▸ hi)
  simpa [List.getD_eq_getElem?_getD, hi, hi'] using hget

theorem map_rowsOfColumns (height : ℕ) (columns : List (List α)) {g : α → α} (hg : g 0 = 0) :
    rowsOfColumns height (columns.map (List.map g)) = (rowsOfColumns height columns).map (List.map g) := by
  have hget (v : List α) (i : ℕ) : (v.map g).getD i 0 = g (v.getD i 0) := by
    cases h : v[i]? <;> simp [List.getD_eq_getElem?_getD, h, hg]
  simp only [rowsOfColumns, List.map_map, Function.comp_def, hget]

end Columns

namespace Quat

variable {α : Type}

def along (q d : Quat α) : Quat (Dual α) := ⟨⟨q.x, d.x⟩, ⟨q.y, d.y⟩, ⟨q.z, d.z⟩, ⟨q.w, d.w⟩⟩

def axes [Scalar α] : List (Quat α) := [⟨1, 0, 0, 0⟩, ⟨0, 1, 0, 0⟩, ⟨0, 0, 1, 0⟩, ⟨0, 0, 0, 1⟩]

end Quat

namespace Vec3

variable {α : Type}

def along (v d : Vec3 α) : Vec3 (Dual α) := ⟨⟨v.x, d.x⟩, ⟨v.y, d.y⟩, ⟨v.z, d.z⟩⟩

def axes [Scalar α] : List (Vec3 α) := [⟨1, 0, 0⟩, ⟨0, 1, 0⟩, ⟨0, 0, 1⟩]

end Vec3

def poseSlopes {α : Type} [Scalar α] (prior : Rigid α) (T : Rigid (Dual α)) : List α :=
  (poseError (prior.map Dual.const).inverse T).map Dual.slope

theorem map_poseError {α β : Type} [Scalar α] [Scalar β] {f : α → β} (hf : Scalar.IsHom f) (inverse T : Rigid α) :
    (poseError inverse T).map f = poseError (inverse.map f) (T.map f) := by
  simp only [poseError, List.map_append, ← Vec3.toList_map, Quat.map_log hf, Quat.map_mul hf, Vec3.map_add hf,
    Quat.map_rotate hf, Rigid.map_rotation, Rigid.map_translation]

section Exact

variable {α : Type} [ExactScalar α]

/-- A matrix at rest acts on slopes. -/
theorem Mat.slope_mulList {m n : ℕ} (S : Mat m n α) (e : List (Dual α)) :
    ((S.map Dual.const).mulList e).map Dual.slope = S.mulList (e.map Dual.slope) := by
  simp only [mulList, rows_map, List.map_map, Function.comp_def, Dual.slope_dot]

def rotationJacobian (prior : Rigid α) (S : Mat 6 6 α) (T : Rigid α) : List (List α) :=
  rowsOfColumns 6 (Quat.axes.map fun d =>
    S.mulList (poseSlopes prior ⟨T.rotation.along d, T.translation.map Dual.const⟩))

def translationJacobian (prior : Rigid α) (S : Mat 6 6 α) (T : Rigid α) : List (List α) :=
  rowsOfColumns 6 (Vec3.axes.map fun d =>
    S.mulList (poseSlopes prior ⟨T.rotation.map Dual.const, T.translation.along d⟩))

theorem Measurement.jacobians_posePrior (prior T : Rigid α) (S : Mat 6 6 α) :
    (posePrior prior S).jacobians T.blocks = .ok [rotationJacobian prior S T, translationJacobian prior S T] := by
  simp only [rotationJacobian, translationJacobian, poseSlopes, ← Mat.slope_mulList]
  rfl

end Exact

end BundleAdjustment
