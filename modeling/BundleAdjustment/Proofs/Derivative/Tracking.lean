import Mathlib
import BundleAdjustment.Proofs.Exact.Dual

/-! # Tracking

A family of dual numbers, one for each direction, tracks a function at a point if it has the value of the function there
and slopes along its derivative. Every operation of a scalar keeps this up where it has a derivative, and so does a
choice between branches off their boundary.
-/

namespace BundleAdjustment

namespace Dual

theorem slope_sqrt (a : Dual ℝ) : (Scalar.sqrt a).slope = a.slope / (2 * √a.value) := by
  change a.slope / (@OfNat.ofNat ℝ 2 (Scalar.instOfNatScalar 2) * √a.value) = _
  rw [ExactScalar.numeral_eq_cast, Nat.cast_ofNat]

theorem slope_tan (a : Dual ℝ) : (Scalar.tan a).slope = a.slope * (1 + Real.tan a.value * Real.tan a.value) := by
  change a.slope * (@OfNat.ofNat ℝ 1 (Scalar.instOfNatScalar 1) + _) = _
  rw [ExactScalar.numeral_eq_cast, Nat.cast_one]
  rfl

theorem slope_atan (a : Dual ℝ) : (Scalar.atan a).slope = a.slope / (1 + a.value * a.value) := by
  change a.slope / (@OfNat.ofNat ℝ 1 (Scalar.instOfNatScalar 1) + _) = _
  rw [ExactScalar.numeral_eq_cast, Nat.cast_one]

theorem slope_atan2 (a b : Dual ℝ) : (Scalar.atan2 a b).slope =
    (a.slope * b.value - a.value * b.slope) / (a.value * a.value + b.value * b.value) := rfl

open Asymptotics Filter Topology

variable {E : Type*} [NormedAddCommGroup E] [NormedSpace ℝ E]

/-- The dual numbers `d` have the value of `f` at `a`, and its derivative as slopes. -/
def Tracks (f : E → ℝ) (d : E → Dual ℝ) (a : E) : Prop :=
  ∃ f' : E →L[ℝ] ℝ, HasFDerivAt f f' a ∧ d = fun e => ⟨f a, f' e⟩

namespace Tracks

variable {f g : E → ℝ} {d d' : E → Dual ℝ} {a : E}

theorem value_eq (hf : Tracks f d a) (e : E) : (d e).value = f a := by
  obtain ⟨f', -, rfl⟩ := hf
  rfl

theorem continuousAt (hf : Tracks f d a) : ContinuousAt f a := by
  obtain ⟨f', hf', -⟩ := hf
  exact hf'.continuousAt

/-- Only the values near the point matter. -/
theorem congr (hf : Tracks f d a) (hfg : ∀ᶠ y in 𝓝 a, g y = f y) (hd : ∀ e, d' e = d e) : Tracks g d' a := by
  obtain ⟨f', hf', rfl⟩ := hf
  refine ⟨f', hf'.congr_of_eventuallyEq hfg, funext fun e => ?_⟩
  rw [hd, hfg.self_of_nhds]

theorem const (c : ℝ) : Tracks (fun _ : E => c) (fun _ => Dual.const c) a :=
  ⟨0, hasFDerivAt_const c a, funext fun _ => Dual.ext rfl (by simp [Dual.const])⟩

theorem numeral (n : ℕ) : Tracks (fun _ : E => @OfNat.ofNat ℝ n (Scalar.instOfNatScalar n))
    (fun _ => @OfNat.ofNat (Dual ℝ) n (Scalar.instOfNatScalar n)) a := const _

theorem scientific (m : ℕ) (s : Bool) (k : ℕ) :
    Tracks (fun _ : E => @OfScientific.ofScientific ℝ Scalar.instOfScientificScalar m s k)
      (fun _ => @OfScientific.ofScientific (Dual ℝ) Scalar.instOfScientificScalar m s k) a := const _

theorem add (hf : Tracks f d a) (hg : Tracks g d' a) : Tracks (fun y => f y + g y) (fun e => d e + d' e) a := by
  obtain ⟨f', hf', rfl⟩ := hf
  obtain ⟨g', hg', rfl⟩ := hg
  exact ⟨f' + g', hf'.add hg', rfl⟩

theorem neg (hf : Tracks f d a) : Tracks (fun y => -f y) (fun e => -d e) a := by
  obtain ⟨f', hf', rfl⟩ := hf
  exact ⟨-f', hf'.neg, rfl⟩

theorem sub (hf : Tracks f d a) (hg : Tracks g d' a) : Tracks (fun y => f y - g y) (fun e => d e - d' e) a := by
  obtain ⟨f', hf', rfl⟩ := hf
  obtain ⟨g', hg', rfl⟩ := hg
  exact ⟨f' - g', hf'.sub hg', rfl⟩

theorem mul (hf : Tracks f d a) (hg : Tracks g d' a) : Tracks (fun y => f y * g y) (fun e => d e * d' e) a := by
  obtain ⟨f', hf', rfl⟩ := hf
  obtain ⟨g', hg', rfl⟩ := hg
  refine ⟨f a • g' + g a • f', hf'.mul hg', funext fun e => Dual.ext rfl ?_⟩
  simp only [Dual.slope_mul, add_apply, smul_apply, smul_eq_mul]
  ring

theorem div (hf : Tracks f d a) (hg : Tracks g d' a) (hne : g a ≠ 0) :
    Tracks (fun y => f y / g y) (fun e => d e / d' e) a := by
  obtain ⟨f', hf', rfl⟩ := hf
  obtain ⟨g', hg', rfl⟩ := hg
  refine ⟨_, hf'.mul ((hasDerivAt_inv hne).comp_hasFDerivAt a hg'), funext fun e => Dual.ext rfl ?_⟩
  simp only [Dual.slope_div, add_apply, smul_apply, smul_eq_mul]
  field_simp
  ring

/-- Where one factor vanishes, the other one need only be continuous. -/
theorem mul_of_eq_zero {k : E → ℝ} (hf : Tracks f d a) (hzero : f a = 0) (hk : ContinuousAt k a) :
    Tracks (fun y => f y * k y) (fun e => d e * Dual.const (k a)) a := by
  obtain ⟨f', hf', rfl⟩ := hf
  have hsmall : HasFDerivAt (fun y => f y * (k y - k a)) (0 : E →L[ℝ] ℝ) a := by
    refine .of_isLittleO ?_
    have hfactor : (fun y => f y) =O[𝓝 a] fun y => ‖y - a‖ := by
      simpa only [hzero, sub_zero] using hf'.isBigO_sub.norm_right
    have hrest : (fun y => k y - k a) =o[𝓝 a] fun _ => (1 : ℝ) :=
      (isLittleO_one_iff ℝ).mpr (tendsto_sub_nhds_zero_iff.mpr hk)
    simpa [hzero] using (hfactor.mul_isLittleO hrest).norm_right
  -- The product with the other factor frozen, and a rest in which both factors vanish.
  have hsplit (y : E) : f y * k y = f y * k a + f y * (k y - k a) := by ring
  refine ⟨k a • f' + 0, ((hf'.mul_const (k a)).add hsmall).congr_of_eventuallyEq (.of_forall hsplit),
    funext fun e => Dual.ext rfl ?_⟩
  simp [Dual.const, hzero, mul_comm]

/-- A function of one number whose derivative is the slope of its dual form. -/
theorem comp {φ : ℝ → ℝ} {ψ : Dual ℝ → Dual ℝ} {φ' : ℝ} (hf : Tracks f d a) (hφ : HasDerivAt φ φ' (f a))
    (hψ : ∀ s, ψ ⟨f a, s⟩ = ⟨φ (f a), φ' * s⟩) : Tracks (fun y => φ (f y)) (fun e => ψ (d e)) a := by
  obtain ⟨f', hf', rfl⟩ := hf
  exact ⟨φ' • f', hφ.comp_hasFDerivAt a hf', funext fun e => hψ (f' e)⟩

theorem sqrt (hf : Tracks f d a) (hne : f a ≠ 0) :
    Tracks (fun y => Scalar.sqrt (f y)) (fun e => Scalar.sqrt (d e)) a := by
  refine hf.comp (Real.hasDerivAt_sqrt hne) fun s => Dual.ext rfl ?_
  simp only [Dual.slope_sqrt]
  ring

theorem tan (hf : Tracks f d a) (hne : Real.cos (f a) ≠ 0) :
    Tracks (fun y => Scalar.tan (f y)) (fun e => Scalar.tan (d e)) a := by
  refine hf.comp (Real.hasDerivAt_tan hne) fun s => Dual.ext rfl ?_
  have hsquares := Real.cos_sq_add_sin_sq (f a)
  simp only [Dual.slope_tan, Real.tan_eq_sin_div_cos]
  field_simp
  linear_combination s * hsquares

theorem atan (hf : Tracks f d a) : Tracks (fun y => Scalar.atan (f y)) (fun e => Scalar.atan (d e)) a := by
  refine hf.comp (Real.hasDerivAt_arctan (f a)) fun s => Dual.ext rfl ?_
  simp only [Dual.slope_atan]
  ring

/-- The angle of a point off the negative half of the axis. -/
theorem atan2 (hf : Tracks f d a) (hg : Tracks g d' a) (hslit : (⟨g a, f a⟩ : ℂ) ∈ Complex.slitPlane) :
    Tracks (fun y => Scalar.atan2 (f y) (g y)) (fun e => Scalar.atan2 (d e) (d' e)) a := by
  obtain ⟨f', hf', rfl⟩ := hf
  obtain ⟨g', hg', rfl⟩ := hg
  -- The angle is the imaginary part of the complex logarithm, which has a derivative off the slit.
  have hpoint : HasFDerivAt (fun y => (⟨g y, f y⟩ : ℂ))
      (Complex.equivRealProdCLM.symm.toContinuousLinearMap.comp (g'.prod f')) a :=
    Complex.equivRealProdCLM.symm.hasFDerivAt.comp a (hg'.prodMk hf')
  have hlog := (Complex.hasStrictDerivAt_log hslit).hasDerivAt.comp_hasFDerivAt a hpoint
  have hangle (y : E) : Scalar.atan2 (f y) (g y) = (Complex.log ⟨g y, f y⟩).im := (Complex.log_im _).symm
  refine ⟨_, (Complex.imCLM.hasFDerivAt.comp a hlog).congr_of_eventuallyEq (.of_forall hangle),
    funext fun e => Dual.ext rfl ?_⟩
  simp only [Dual.slope_atan2, ContinuousLinearMap.comp_apply, smul_apply, ContinuousLinearMap.prod_apply,
    ContinuousLinearEquiv.coe_coe, smul_eq_mul, Complex.imCLM_apply, Complex.mul_im, Complex.inv_re, Complex.normSq_mk,
    Complex.equivRealProdCLM_symm_apply_im, Complex.inv_im, Complex.equivRealProdCLM_symm_apply_re]
  ring

/-- A choice has the derivative of the chosen branch, off the boundary between both. -/
theorem ite_lt {u v : E → ℝ} {b c : E → Dual ℝ} (hf : Tracks f d a) (hg : Tracks g d' a) (hne : f a ≠ g a)
    (hu : f a < g a → Tracks u b a) (hv : g a < f a → Tracks v c a) :
    Tracks (fun y => if Scalar.lt (f y) (g y) then u y else v y)
      (fun e => if Scalar.lt (d e) (d' e) then b e else c e) a := by
  have hvalues (e : E) : Scalar.lt (d e) (d' e) = Scalar.lt (f a) (g a) := by
    simp only [Scalar.lt, hf.value_eq, hg.value_eq]
  rcases hne.lt_or_gt with h | h
  · refine (hu h).congr ?_ fun e => if_pos ((hvalues e).trans ((Scalar.lt_iff ..).mpr h))
    filter_upwards [hf.continuousAt.eventually_lt hg.continuousAt h] with y hy
    exact if_pos ((Scalar.lt_iff ..).mpr hy)
  · refine (hv h).congr ?_ fun e => if_neg (by rw [hvalues e, Scalar.lt_iff]; exact h.not_gt)
    filter_upwards [hg.continuousAt.eventually_lt hf.continuousAt h] with y hy
    exact if_neg (mt (Scalar.lt_iff ..).mp hy.not_gt)

end Tracks

end Dual

end BundleAdjustment
