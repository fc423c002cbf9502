import BundleAdjustment.Proofs.Derivative.Geometry
import BundleAdjustment.Proofs.Rotation.DoubleCover

/-! # Tracked rotation vectors

The rotation vector of a tracking quaternion is tracked as well, off the half turns and the quaternions without vector
part. At the identity, where the logarithm changes over to its linear term, it still is.
-/

namespace BundleAdjustment

open Filter Topology

namespace Quat

/-- The rotation vector has a derivative, and the logarithm finds it: there are a vector part and a scalar part, or the
quaternion is the identity. -/
def LogSmooth (q : Quat ℝ) : Prop := q.vec ≠ Vec3.zero ∧ q.w ≠ 0 ∨ q = 1

/-- The share of the vector part in half the rotation vector, for a turn by less than half a revolution. It has no jump
at the quaternions without vector part. -/
noncomputable def halfLogFactor (q : Quat ℝ) : ℝ := dslope Real.arctan 0 (q.sine / q.w) / q.w

theorem log_eq_scale_halfLogFactor {q : Quat ℝ} (hw : 0 < q.w) : q.log = q.vec.scale (2 * q.halfLogFactor) := by
  by_cases hvec : q.vec = Vec3.zero
  · rw [log_of_vec_eq_zero hvec, hvec, Vec3.zero_scale]
  · have hsine := (sine_pos hvec).ne'
    have hfactor : 2 * q.halfLogFactor = 2 * Real.arctan (q.sine / q.w) / q.sine := by
      rw [halfLogFactor, dslope_of_ne _ (div_ne_zero hsine hw.ne'), slope_def_field, Real.arctan_zero, sub_zero,
        sub_zero]
      field_simp
    rw [hfactor, ← Scalar.atan2_of_pos _ hw, log_of_nonneg hw.le hvec]

theorem halfLogFactor_one : halfLogFactor 1 = 1 := by
  simp [halfLogFactor, sine, one_def, vec, Vec3.dot, Scalar.sqrt_eq]

namespace Tracks

variable {E : Type*} [NormedAddCommGroup E] [NormedSpace ℝ E] {a : E} {f : E → Quat ℝ} {d : E → Quat (Dual ℝ)}

theorem value_eq (hf : Tracks f d a) (e : E) : (d e).value = f a :=
  Quat.ext (hf.x.value_eq e) (hf.y.value_eq e) (hf.z.value_eq e) (hf.w.value_eq e)

/-- Where the quaternion has a vector part, and turns by less or by more than half a revolution. -/
theorem log_of_ne (hf : Tracks f d a) (hvec : (f a).vec ≠ Vec3.zero) (hw : (f a).w ≠ 0) :
    Vec3.Tracks (fun y => (f y).log) (fun e => (d e).log) a := by
  -- Neither choice of the logarithm is at its boundary, and there is a positive sine to divide by.
  have hzero := Dual.Tracks.numeral (a := a) 0
  have hsq := hf.vec.dot hf.vec
  have hsine := hsq.sqrt (Vec3.dot_self_pos hvec).ne'
  have hhalf := hf.w.ite_lt hzero (by simpa using hw)
    (fun h => hsine.neg.atan2 hf.w.neg (.inl (by simpa using h)))
    (fun h => hsine.atan2 hf.w (.inl (by simpa using h)))
  refine Vec3.Tracks.ite_lt hzero hsq (by simpa using (Vec3.dot_self_pos hvec).ne) (fun _ => ?_) fun h => ?_
  · exact hf.vec.scale (((Dual.Tracks.numeral 2).mul hhalf).div hsine (sine_pos hvec).ne')
  · exact absurd (Vec3.dot_self_pos hvec) (by simpa using h.le)

theorem continuousAt_halfLogFactor (hf : Tracks f d a) (hone : f a = 1) :
    ContinuousAt (fun y => (f y).halfLogFactor) a := by
  have hw : (f a).w = 1 := congrArg Quat.w hone
  have hsine : (f a).sine = 0 := by
    simp [hone, sine, one_def, Quat.vec, Vec3.dot, Scalar.sqrt_eq]
  have hratio : ContinuousAt (fun y => (f y).sine / (f y).w) a :=
    ((hf.vec.dot hf.vec).continuousAt.sqrt).div hf.w.continuousAt (hw ▸ one_ne_zero)
  have hslope : ContinuousAt (fun y => dslope Real.arctan 0 ((f y).sine / (f y).w)) a :=
    (continuousAt_dslope_same.mpr (Real.differentiableAt_arctan 0)).comp_of_eq hratio (by rw [hsine, zero_div])
  exact hslope.div hf.w.continuousAt (hw ▸ one_ne_zero)

/-- At the identity the vector part vanishes, and the factor before it is two as in the linear term. -/
theorem log_of_eq_one (hf : Tracks f d a) (hone : f a = 1) :
    Vec3.Tracks (fun y => (f y).log) (fun e => (d e).log) a := by
  have hvec : (f a).vec = Vec3.zero := by
    simp [hone, Quat.vec, one_def, Vec3.zero]
  have hw : 0 < (f a).w := by
    simp [hone, one_def]
  have hfactor := (hf.continuousAt_halfLogFactor hone).const_mul 2
  have hlinear : Vec3.Tracks (fun y => (f y).vec.scale (2 * (f y).halfLogFactor))
      (fun e => (d e).vec.scale (Dual.const (2 * (f a).halfLogFactor))) a := by
    obtain ⟨hx, hy, hz⟩ := Vec3.ext_iff.mp hvec
    simp only [Vec3.zero, ExactScalar.numeral_eq_cast, Nat.cast_zero] at hx hy hz
    exact ⟨hf.x.mul_of_eq_zero hx hfactor, hf.y.mul_of_eq_zero hy hfactor, hf.z.mul_of_eq_zero hz hfactor⟩
  -- Near the identity the scalar part is positive; dual numbers at the identity take the linear term.
  refine hlinear.congr ?_ fun e => ?_
  · filter_upwards [continuousAt_const.eventually_lt hf.w.continuousAt hw] with y hy
    exact log_eq_scale_halfLogFactor hy
  · rw [log_dual_of_vec_eq_zero (by rw [hf.value_eq, hvec]), hone, halfLogFactor_one, mul_one]
    exact congrArg _ (Dual.ext rfl (by simp [Dual.const]))

theorem log (hf : Tracks f d a) (hsmooth : (f a).LogSmooth) :
    Vec3.Tracks (fun y => (f y).log) (fun e => (d e).log) a := by
  rcases hsmooth with ⟨hvec, hw⟩ | hone
  · exact hf.log_of_ne hvec hw
  · exact hf.log_of_eq_one hone

end Tracks

end Quat

end BundleAdjustment
