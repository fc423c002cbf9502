import BundleAdjustment.Proofs.Rotation.DoubleCover

/-! # The logarithm and the exponential of rotations

Rotation vectors no longer than half a revolution stand for the rotations: the exponential of the rotation vector of a
unit quaternion is that quaternion or its negative, whichever has no negative scalar part, and the rotation vector of
the exponential of such a vector is the vector.
-/

namespace BundleAdjustment.Quat

theorem vec_exp (v : Vec3 ℝ) : (exp v).vec = v.scale (Real.sin (v.norm / 2) / v.norm) := by
  by_cases hv : v = Vec3.zero
  · ext <;> simp [exp, vec, hv, Vec3.zero]
  · have hnorm : Scalar.eq v.norm 0 = false := by simpa [← Bool.not_eq_true] using (Vec3.norm_pos hv).ne'
    ext <;> simp [exp, vec, hnorm, Scalar.sin_eq] <;> ring

theorem w_exp (v : Vec3 ℝ) : (exp v).w = Real.cos (v.norm / 2) := by
  simp [exp, Scalar.cos_eq]

theorem exp_zero : exp Vec3.zero = (1 : Quat ℝ) := by
  refine ext_vec ?_ ?_
  · rw [vec_exp, Vec3.zero_scale]
    ext <;> simp [Vec3.zero, vec, one_def]
  · rw [w_exp, Vec3.norm_zero, zero_div, Real.cos_zero, one_def]

theorem sine_exp {v : Vec3 ℝ} (hv : v.norm ≤ Real.pi) (hne : v ≠ Vec3.zero) : (exp v).sine = Real.sin (v.norm / 2) := by
  have hnorm := Vec3.norm_pos hne
  have hsin : 0 < Real.sin (v.norm / 2) := Real.sin_pos_of_pos_of_lt_pi (by linarith) (by linarith)
  rw [← norm_vec, vec_exp, Vec3.norm_scale, abs_of_pos (div_pos hsin hnorm), div_mul_cancel₀ _ hnorm.ne']

theorem normSq_exp (v : Vec3 ℝ) : (exp v).normSq = 1 := by
  by_cases hv : v = Vec3.zero
  · rw [hv, exp_zero, normSq_one]
  · have hnorm := Vec3.norm_pos hv
    rw [← sine_mul_self, ← norm_vec, vec_exp, Vec3.norm_scale, abs_div, abs_of_pos hnorm,
      div_mul_cancel₀ _ hnorm.ne', abs_mul_abs_self, w_exp, ← pow_two, ← pow_two, Real.sin_sq_add_cos_sq]

theorem norm_log_of_nonneg {q : Quat ℝ} (hw : 0 ≤ q.w) (hvec : q.vec ≠ Vec3.zero) :
    q.log.norm = 2 * Scalar.atan2 q.sine q.w := by
  have hsine := sine_pos hvec
  have hangle := Scalar.atan2_nonneg hsine.le q.w
  rw [log_of_nonneg hw hvec, Vec3.norm_scale, norm_vec, abs_of_nonneg (by positivity), div_mul_cancel₀ _ hsine.ne']

/-- Only the quaternions without vector part have the rotation vector zero. -/
theorem log_eq_zero_iff (q : Quat ℝ) : q.log = Vec3.zero ↔ q.vec = Vec3.zero := by
  have hturn {p : Quat ℝ} (hw : 0 ≤ p.w) (hvec : p.vec ≠ Vec3.zero) : p.log ≠ Vec3.zero := by
    rw [ne_eq, ← Vec3.norm_eq_zero_iff, norm_log_of_nonneg hw hvec]
    exact (mul_pos two_pos (Scalar.atan2_pos (sine_pos hvec) p.w)).ne'
  refine ⟨fun hlog => ?_, log_of_vec_eq_zero⟩
  by_contra hvec
  rcases le_or_gt 0 q.w with hw | hw
  · exact hturn hw hvec hlog
  · rw [← log_neg (not_isHalfTurn hw.ne)] at hlog
    exact hturn (neg_nonneg.mpr hw.le) (mt (vec_neg_eq_zero_iff q).mp hvec) hlog

theorem norm_log_le_of_nonneg {q : Quat ℝ} (hw : 0 ≤ q.w) : q.log.norm ≤ Real.pi := by
  by_cases hvec : q.vec = Vec3.zero
  · rw [log_of_vec_eq_zero hvec, Vec3.norm_zero]
    exact Real.pi_nonneg
  · rw [norm_log_of_nonneg hw hvec]
    linarith [(abs_le.mp (Scalar.abs_atan2_le q.sine hw)).2]

theorem norm_log_le (q : Quat ℝ) : q.log.norm ≤ Real.pi := by
  rcases le_or_gt 0 q.w with hw | hw
  · exact norm_log_le_of_nonneg hw
  · rw [← log_neg (not_isHalfTurn hw.ne)]
    exact norm_log_le_of_nonneg (neg_nonneg.mpr hw.le)

theorem exp_log_of_vec_eq_zero {q : Quat ℝ} (hq : q.normSq = 1) (hw : 0 ≤ q.w) (hvec : q.vec = Vec3.zero) :
    exp q.log = q := by
  have hsine : q.sine = 0 := q.vec.norm_eq_zero_iff.mpr hvec
  have hone : q.w = 1 := by
    rw [← sine_mul_self, hsine] at hq
    nlinarith
  refine ext_vec ?_ ?_
  · rw [vec_exp, log_of_vec_eq_zero hvec, Vec3.zero_scale, hvec]
  · rw [w_exp, log_of_vec_eq_zero hvec, Vec3.norm_zero, zero_div, Real.cos_zero, hone]

theorem exp_log_of_vec_ne_zero {q : Quat ℝ} (hq : q.normSq = 1) (hw : 0 ≤ q.w) (hvec : q.vec ≠ Vec3.zero) :
    exp q.log = q := by
  -- Half the angle is that of a point on the unit circle, and only its sine and cosine matter.
  have hcircle : q.sine * q.sine + q.w * q.w = 1 := (sine_mul_self q).trans hq
  have hsine := (sine_pos hvec).ne'
  have hsin := Scalar.sin_atan2 hcircle
  have hcos := Scalar.cos_atan2 hcircle
  have hlog := log_of_nonneg hw hvec
  have hnorm := norm_log_of_nonneg hw hvec
  generalize Scalar.atan2 q.sine q.w = angle at hsin hcos hlog hnorm
  have hangle : angle ≠ 0 := by
    rintro rfl
    exact hsine (hsin.symm.trans Real.sin_zero)
  have hhalf : q.log.norm / 2 = angle := by rw [hnorm, mul_div_cancel_left₀ _ two_ne_zero]
  have hfactor : 2 * angle / q.sine * (q.sine / (2 * angle)) = 1 := by field_simp
  refine ext_vec ?_ ?_
  · rw [vec_exp, hhalf, hsin, hnorm, hlog, Vec3.scale_scale, hfactor, Vec3.scale_one]
  · rw [w_exp, hhalf, hcos]

theorem exp_log_of_nonneg {q : Quat ℝ} (hq : q.normSq = 1) (hw : 0 ≤ q.w) : exp q.log = q := by
  by_cases hvec : q.vec = Vec3.zero
  · exact exp_log_of_vec_eq_zero hq hw hvec
  · exact exp_log_of_vec_ne_zero hq hw hvec

theorem exp_log_of_neg {q : Quat ℝ} (hq : q.normSq = 1) (hw : q.w < 0) : exp q.log = -q := by
  have hnormSq : (-q).normSq = 1 := by
    rw [← hq]
    simp [normSq]
  rw [← log_neg (not_isHalfTurn hw.ne)]
  exact exp_log_of_nonneg hnormSq (neg_nonneg.mpr hw.le)

theorem log_exp {v : Vec3 ℝ} (hv : v.norm ≤ Real.pi) : (exp v).log = v := by
  by_cases hzero : v = Vec3.zero
  · refine (log_of_vec_eq_zero ?_).trans hzero.symm
    rw [vec_exp, hzero, Vec3.zero_scale]
  · have hnorm := Vec3.norm_pos hzero
    have hsin : 0 < Real.sin (v.norm / 2) := Real.sin_pos_of_pos_of_lt_pi (by linarith) (by linarith)
    have hcos : 0 ≤ Real.cos (v.norm / 2) := Real.cos_nonneg_of_neg_pi_div_two_le_of_le (by linarith) (by linarith)
    have hvec : (exp v).vec ≠ Vec3.zero := by
      rw [ne_eq, ← Vec3.norm_eq_zero_iff, norm_vec, sine_exp hv hzero]
      exact hsin.ne'
    have hfactor : Real.sin (v.norm / 2) / v.norm * (2 * (v.norm / 2) / Real.sin (v.norm / 2)) = 1 := by field_simp
    rw [log_of_nonneg (w_exp v ▸ hcos) hvec, w_exp, sine_exp hv hzero,
      Scalar.atan2_sin_cos (by linarith) (by linarith), vec_exp, Vec3.scale_scale, hfactor, Vec3.scale_one]

/-- The exponential of a rotation vector is the quaternion of its axis and half its length. The logarithm of a unit
quaternion is no longer than half a revolution, and the exponential takes it back to the quaternion or, where the scalar
part is negative, to its negative. The logarithm takes the exponential of such a vector back to the vector. -/
theorem exp_log_and_log_exp :
    (exp Vec3.zero = (identity : Quat ℝ) ∧ ∀ v : Vec3 ℝ,
      (exp v).vec = v.scale (Real.sin (v.norm / 2) / v.norm) ∧ (exp v).w = Real.cos (v.norm / 2)) ∧
    (∀ q : Quat ℝ, q.normSq = 1 →
      q.log.norm ≤ Real.pi ∧ (0 ≤ q.w → exp q.log = q) ∧ (q.w < 0 → exp q.log = -q)) ∧
    ∀ v : Vec3 ℝ, v.norm ≤ Real.pi → (exp v).normSq = 1 ∧ (exp v).log = v :=
  ⟨⟨exp_zero.trans identity_eq_one.symm, fun v => ⟨vec_exp v, w_exp v⟩⟩,
    fun q hq => ⟨norm_log_le q, exp_log_of_nonneg hq, exp_log_of_neg hq⟩, fun v hv => ⟨normSq_exp v, log_exp hv⟩⟩

/-- A quaternion with negative scalar part, and a vector as long as half a revolution. -/
theorem exp_log_and_log_exp_pitched :
    (-pitched.rotation).normSq = 1 ∧ (-pitched.rotation).w < 0 ∧ exp (-pitched.rotation).log = - -pitched.rotation ∧
      (⟨0, Real.pi, 0⟩ : Vec3 ℝ).norm ≤ Real.pi ∧ (exp ⟨0, Real.pi, 0⟩).log = ⟨0, Real.pi, 0⟩ := by
  obtain ⟨-, hlog, hexp⟩ := exp_log_and_log_exp
  have hunit : (-pitched.rotation).normSq = 1 := by norm_num [pitched, normSq]
  have hneg : (-pitched.rotation).w < 0 := by norm_num [pitched]
  have hnorm : (⟨0, Real.pi, 0⟩ : Vec3 ℝ).norm ≤ Real.pi := by
    simp [Vec3.norm, Vec3.dot, Scalar.sqrt_eq, Real.sqrt_mul_self Real.pi_nonneg]
  exact ⟨hunit, hneg, (hlog _ hunit).2.2 hneg, hnorm, (hexp _ hnorm).2⟩

end BundleAdjustment.Quat
